import MindMapVault.Accounts.Rotation
import MindMapVault.Shares.Handlers

/-!
# The route of a rotation

What `POST /api/auth/rotate-credentials` checks before it goes to the database: the
shape of the new credentials, the current token against the account it has loaded,
and the shape of the attachments. Argon2 is a parameter.
-/

namespace MindMapVault
namespace Accounts

open Shares (isHexDigit)

/-- What the `argon2` crate is called for: to hash a token, to parse a stored hash and to
verify a token against one that was parsed. -/
structure Argon2 where
  hashAuthToken : String → Except AppError String
  parseHash : String → Except AppError Unit
  verifyPassword : String → String → Bool

/-- `verify_auth_token`. -/
def Argon2.verifyAuthToken (argon2 : Argon2) (authToken storedHash : String) :
    Except AppError Unit := do
  argon2.parseHash storedHash
  if argon2.verifyPassword authToken storedHash then
    .ok ()
  else
    .error (.unauthorized "invalid credentials")

/-- An Argon2 that accepts a token for itself, and refuses an empty hash. -/
def plainArgon2 : Argon2 where
  hashAuthToken := .ok
  parseHash := fun storedHash =>
    if storedHash = "" then
      .error (.internal "argon2 parse error: password hash string missing field")
    else .ok ()
  verifyPassword := fun authToken storedHash => authToken == storedHash

/-- The body of a rotation. -/
structure RotateCredentialsRequest where
  currentAuthToken : String
  update : RotateCredentialsUpdate
  deriving DecidableEq

/-- The new token and the new salt, before anything is loaded. -/
def checkNewCredentials (update : RotateCredentialsUpdate) : Except AppError Unit :=
  if update.newAuthToken.utf8ByteSize ≠ 64 ∨
      !update.newAuthToken.toList.all isHexDigit then
    .error (.badRequest "new_auth_token must be a 64-character hex string")
  else if update.newArgon2Salt = "" then
    .error (.badRequest "new_argon2_salt is required")
  else
    .ok ()

/-- What is accepted has a salt. -/
theorem salt_of_checkNewCredentials {update : RotateCredentialsUpdate}
    (accepted : checkNewCredentials update = .ok ()) : update.newArgon2Salt ≠ "" := by
  unfold checkNewCredentials at accepted
  split_ifs at accepted with _ empty
  exact empty

/-- The attachments of the bundle, once the current token is verified. -/
def checkRotatedAttachments : List RotateAttachmentEntry → Except AppError Unit
  | [] => .ok ()
  | attachment :: rest =>
      if attachment.id = "" then
        .error (.badRequest "attachment id must not be empty")
      else if attachment.wrappedKeyB64 = "" ∨
          1024 < attachment.wrappedKeyB64.utf8ByteSize then
        .error (.badRequest
          s!"wrapped_key_b64 for attachment {attachment.id} is empty or implausibly large")
      else
        checkRotatedAttachments rest

end Accounts
end MindMapVault
