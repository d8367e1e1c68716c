import MindMapVault.Accounts.Database
import MindMapVault.Foundations.Remote
import MindMapVault.Foundations.Threads
import MindMapVault.Vault.VersionId

/-!
# Signing up with an invite

The registrations of a server, cut at their database operations, beside the
operator who makes and revokes invites. While sign-ups are closed a registration
takes the invite of its code before it writes the account, and hands it back by a
statement of its own where a later operation fails. Every operation may fail, with
or without having taken effect.
-/

namespace MindMapVault
namespace Accounts

open Remote Threads
open Vault (DateTime trim)

/-- A row of `registration_invites`. -/
structure RegistrationInvite where
  id : String
  code : String
  label : Option String
  createdAt : DateTime
  expiresAt : Option DateTime
  usedAt : Option DateTime
  usedByUsername : Option String
  deriving DecidableEq

/-- `is_expired`. -/
def RegistrationInvite.isExpired (now : DateTime) (invite : RegistrationInvite) : Bool :=
  invite.expiresAt.any fun expiresAt => decide (expiresAt ≤ now)

/-- What names an invite: its id and its code. -/
def RegistrationInvite.key (invite : RegistrationInvite) : String × String :=
  (invite.id, invite.code)

/-- The body of a registration. -/
structure RegisterRequest where
  username : String
  authToken : String
  argon2Salt : String
  argon2Params : Argon2Params
  classicalPublicKey : String
  pqPublicKey : String
  classicalPrivEncrypted : String
  pqPrivEncrypted : String
  inviteCode : Option String
  deriving DecidableEq

/-- `normalize_invite_code`: four groups of four behind a fixed prefix, or whatever
is left of a code of another shape. -/
def normalizeInviteCode (raw : String) : String :=
  let cleaned := (raw.toList.filter Char.isAlphanum).map Char.toUpper
  let body := if "MMV".toList.isPrefixOf cleaned then cleaned.drop 3 else cleaned
  if body.length ≠ 16 then
    String.ofList cleaned
  else
    let groups := (List.range 4).map fun group =>
      String.ofList ((body.drop (4 * group)).take 4)
    "MMV-" ++ "-".intercalate groups

/-- The accounts, the invites and the settings, with the time. Kept beside them is
what no row remembers: the invites ever made, and those accounts came in by. -/
structure Registry where
  users : Table StoredUser.id
  invites : Table RegistrationInvite.id
  registrationEnabled : Bool
  clock : DateTime
  issued : List (String × String)
  admitted : List (String × String)

namespace Registry

/-- A server nobody has been invited to yet. -/
def fresh (users : Table StoredUser.id) (registrationEnabled : Bool)
    (clock : DateTime) : Registry where
  users := users
  invites := .empty
  registrationEnabled := registrationEnabled
  clock := clock
  issued := []
  admitted := []

/-- `code = $1 AND used_at IS NULL AND (expires_at IS NULL OR expires_at > $3)`. -/
def claimable (code : String) (now : DateTime) (invite : RegistrationInvite) : Bool :=
  invite.code == code && invite.usedAt.isNone &&
    invite.expiresAt.all fun expiresAt => decide (now < expiresAt)

/-- The row a claim takes. -/
def claimed? (registry : Registry) (code : String) (now : DateTime) :
    Option RegistrationInvite :=
  registry.invites.rows.find? (claimable code now)

/-- `claim_registration_invite`. -/
def claim (code username : String) (now : DateTime) (registry : Registry) :
    Registry :=
  { registry with
    invites := registry.invites.update (claimable code now)
      (fun invite =>
        { invite with usedAt := some now, usedByUsername := some username })
      fun _ => rfl }

/-- `release_registration_invite`. -/
def release (id : String) (registry : Registry) : Registry :=
  { registry with
    invites := registry.invites.update (fun invite => invite.id == id)
      (fun invite => { invite with usedAt := none, usedByUsername := none })
      fun _ => rfl }

/-- `create_user`, with the invite the account came in by. -/
def createUser (registry : Registry) (user : StoredUser)
    (invite : Option RegistrationInvite) : Except AppError Registry :=
  if new : user.id ∉ registry.users.rows.map StoredUser.id then
    if registry.users.rows.any (·.username == user.username) then
      .error (.database "duplicate key value violates unique constraint")
    else
      .ok { registry with
        users := registry.users.insert user new
        admitted := registry.admitted ++ (invite.map RegistrationInvite.key).toList }
  else
    .error (.database "duplicate key value violates unique constraint")

end Registry

/-- The account a registration asks for. -/
def registeredUser (id username authHash : String) (body : RegisterRequest) (now : DateTime) :
    StoredUser where
  id := id
  username := username
  authHash := authHash
  argon2Salt := body.argon2Salt
  argon2Params := body.argon2Params
  classicalPublicKey := body.classicalPublicKey
  pqPublicKey := body.pqPublicKey
  classicalPrivEncrypted := body.classicalPrivEncrypted
  pqPrivEncrypted := body.pqPrivEncrypted
  keyVersion := 1
  createdAt := now
  isLocked := false

/-- A registration under way. One that has answered says which invite it took and
which account it wrote. -/
inductive Registration
  | claiming (body : RegisterRequest) (code : String) (now : DateTime)
  | claimed (body : RegisterRequest) (invite : Option RegistrationInvite) (now : DateTime)
  | free (body : RegisterRequest) (invite : Option RegistrationInvite) (now : DateTime)
  | releasing (invite : RegistrationInvite) (account : Option String) (error : AppError)
  | answered (invite : Option (String × String)) (account : Option String)
      (reply : Except AppError Unit)
  deriving DecidableEq

/-- An operation of a registration, and how it ends. -/
inductive RegistrationAct
  | claim (outcome : Outcome)
  | loadUser (outcome : Outcome)
  | hashFails (detail : String)
  | createUser (minted authHash : String) (outcome : Outcome)
  | release (outcome : Outcome)
  deriving DecidableEq

/-- What registrations do not do: the operator's part, accounts that come and go in
other ways, and time. -/
inductive RegistryEvent
  | createInvite (id code : String) (label : Option String) (expiresInDays : Option Int)
  | revokeInvite (id : String)
  | setRegistration (enabled : Bool)
  | setUsers (users : Table StoredUser.id)
  | wait (now : DateTime)

/-- The answer to a failed database operation. -/
def connectionClosed : AppError := .database "connection closed"

/-- Whatever the registration took has to go back before it answers. -/
def releaseInvite (invite : Option RegistrationInvite) (account : Option String)
    (error : AppError) : Registration :=
  match invite with
  | some invite => .releasing invite account error
  | none => .answered none account (.error error)

/-- A registration arrives: its fields are checked, and on a closed server its code
is read. -/
def beginRegister (registry : Registry) (body : RegisterRequest) : Registration :=
  if trim body.username = "" then
    .answered none none (.error (.badRequest "username cannot be empty"))
  else if 64 < body.username.utf8ByteSize then
    .answered none none (.error (.badRequest "username too long"))
  else if body.authToken = "" ∨ body.argon2Salt = "" then
    .answered none none (.error (.badRequest "missing required crypto fields"))
  else if registry.registrationEnabled then
    .claimed body none registry.clock
  else
    match (body.inviteCode.map normalizeInviteCode).filter (· ≠ "") with
    | some code => .claiming body code registry.clock
    | none =>
        .answered none none (.error (.forbidden "registration is closed on this server"))

/-- The next operation of a registration. -/
def advanceRegister (registry : Registry) :
    Registration → RegistrationAct → Option (Registry × Registration)
  | .claiming body code now, .claim outcome =>
      let found := registry.claimed? code now
      let after := outcome.applied (Registry.claim code (trim body.username) now) registry
      match outcome with
      | .done =>
          match found with
          | some invite => some (after, .claimed body (some invite) now)
          | none => some (after, .answered none none
              (.error (.forbidden "this invite code is not valid")))
      | .refused => some (after, .answered none none (.error connectionClosed))
      | .unanswered => some (after, .answered (found.map RegistrationInvite.key) none
          (.error connectionClosed))
  | .claimed body invite now, .loadUser .done =>
      if registry.users.rows.any (·.username == trim body.username) then
        some (registry, releaseInvite invite none (.conflict "username already taken"))
      else
        some (registry, .free body invite now)
  -- the lookup answers with an error at once
  | .claimed _ invite _, .loadUser _ =>
      some (registry, .answered (invite.map RegistrationInvite.key) none (.error connectionClosed))
  | .free _ invite _, .hashFails detail =>
      some (registry, releaseInvite invite none (.internal s!"argon2 hash error: {detail}"))
  | .free body invite now, .createUser minted authHash outcome =>
      let user := registeredUser minted (trim body.username) authHash body now
      match outcome, registry.createUser user invite with
      | .done, .ok after => some (after,
          .answered (invite.map RegistrationInvite.key) (some minted) (.ok ()))
      | .done, .error error => some (registry, releaseInvite invite none error)
      | .unanswered, .ok after =>
          some (after, releaseInvite invite (some minted) connectionClosed)
      | .unanswered, .error _ | .refused, _ =>
          some (registry, releaseInvite invite none connectionClosed)
  | .releasing invite account error, .release outcome =>
      some (outcome.applied (Registry.release invite.id) registry,
        .answered (some invite.key) account (.error error))
  | _, _ => none

/-- What happens outside the registrations. Ids and codes of invites are drawn at
random and do not repeat. -/
def registryEvent (registry : Registry) : RegistryEvent → Option Registry
  | .createInvite id code label expiresInDays =>
      if new : id ∉ registry.invites.rows.map RegistrationInvite.id ∧
          id ∉ registry.issued.map Prod.fst ∧ code ∉ registry.issued.map Prod.snd then
        if expiresInDays.all fun days => decide (1 ≤ days ∧ days ≤ 365) then
          let invite : RegistrationInvite :=
            { id := id
              code := code
              label := label
              createdAt := registry.clock
              expiresAt := expiresInDays.map fun days =>
                registry.clock + days * (24 * 3600 * 1000000)
              usedAt := none
              usedByUsername := none }
          some { registry with
            invites := registry.invites.insert invite new.1
            issued := registry.issued ++ [invite.key] }
        else
          none
      else
        none
  | .revokeInvite id =>
      some { registry with invites := registry.invites.delete (·.id == id) }
  | .setRegistration enabled =>
      some { registry with registrationEnabled := enabled }
  | .setUsers users => some { registry with users := users }
  | .wait now =>
      if registry.clock ≤ now then some { registry with clock := now } else none

/-- Any number of registrations, interleaved operation by operation. -/
def registrations :
    Program Registry Registration RegistryEvent RegisterRequest RegistrationAct where
  outside := registryEvent
  spawn := fun registry body => some (registry, beginRegister registry body)
  advance := advanceRegister

/-- The registry and the registrations under way. -/
abbrev RegistrationPool := Pool Registry Registration

/-- A move of the registrations. -/
abbrev RegistrationMove := Move RegistryEvent RegisterRequest RegistrationAct

end Accounts
end MindMapVault
