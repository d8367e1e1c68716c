import MindMapVault.Accounts.Database
import MindMapVault.Foundations.Base64
import MindMapVault.Throttle.AuthThrottle

/-!
# Salt lookups and password sign-ins

The two routes a client calls before it has a session: the salt of a username,
invented where the name has no password, and the sign-in itself. A sign-in is cut
where it waits, after the lock was checked and before the account is loaded, so that
any number of them overlap. Argon2, HMAC, the tokens and the lower-casing of names
are parameters. The settings stay as they are, and the verification budget is never
full.
-/

namespace MindMapVault
namespace Accounts

open Throttle

/-- What the routes call outside the repository. -/
structure Externals where
  arithmetic : Rounding
  toLowercase : String → String
  hmacSha256 : List UInt8 → List UInt8 → List UInt8
  verifyAuthToken : String → String → Except AppError Unit
  issueAccessToken : String → UInt32 → Except AppError String
  issueRefreshToken : String → UInt32 → Except AppError String

/-- `AuthSqlState`, apart from the throttle: the accounts by their name, the
settings and the key of the invented salts. -/
structure AuthSqlState where
  users : Table StoredUser.username
  settings : InstanceSettings
  saltPepper : List UInt8

namespace AuthSqlState

/-- `load_user_by_username`: the name as it is spelled. -/
def loadUserByUsername (state : AuthSqlState) (username : String) : Option StoredUser :=
  state.users.find? username

end AuthSqlState

section Routes

variable (externals : Externals) (state : AuthSqlState)

/-- `count_auth_request`. -/
def countAuthRequest (throttle : AuthThrottle) (now : Nat) (clientIp : IpAddr)
    (attemptClass : AttemptClass) : Except AppError Unit × AuthThrottle :=
  let answer := throttle.checkAddress externals.arithmetic now clientIp attemptClass
    (state.settings.limit attemptClass)
  (answer.1.mapError fun retryAfter =>
      .tooManyRequests "too many attempts; please wait and try again" (max (retryAfter / 10 ^ 9) 1),
    answer.2)

/-! ### The salt -/

/-- `SaltResponse`. -/
structure SaltResponse where
  argon2Salt : String
  argon2Params : Argon2Params
  deriving DecidableEq

/-- `Argon2Params::default`. -/
def Argon2Params.default : Argon2Params := { mCost := 65536, tCost := 3, pCost := 4 }

/-- `SaltPepper::pseudo_salt`, of the name trimmed and in lower case. -/
def pseudoSalt (username : String) : String :=
  Base64.encode (externals.hmacSha256 state.saltPepper
    (normalize externals.toLowercase username).toUTF8.toList)

/-- `password_salt`. -/
def passwordSalt (user : StoredUser) : Option SaltResponse :=
  if user.argon2Salt = "" then none
  else some ⟨user.argon2Salt, user.argon2Params⟩

/-- What a name that has no password salt is answered. -/
def inventedSalt (username : String) : SaltResponse :=
  ⟨pseudoSalt externals state username, Argon2Params.default⟩

/-- `GET /auth/salt`. -/
def getSalt (throttle : AuthThrottle) (now : Nat) (clientIp : IpAddr) (username : String) :
    Except AppError SaltResponse × AuthThrottle :=
  match countAuthRequest externals state throttle now clientIp .lookup with
  | (.error error, throttle) => (.error error, throttle)
  | (.ok (), throttle) =>
      if username = "" then (.error (.badRequest "username is required"), throttle)
      else
        (.ok (((state.loadUserByUsername username).bind passwordSalt).getD
          (inventedSalt externals state username)), throttle)

/-! ### The sign-in -/

/-- `LoginRequest`. -/
structure LoginRequest where
  username : String
  authToken : String
  deriving DecidableEq

/-- `LoginResponse`. -/
structure LoginResponse where
  accessToken : String
  refreshToken : String
  classicalPublicKey : String
  pqPublicKey : String
  classicalPrivEncrypted : String
  pqPrivEncrypted : String
  argon2Salt : String
  argon2Params : Argon2Params
  keyVersion : UInt32
  deriving DecidableEq

/-- `login` up to where the account is loaded: the address, the body and the lock
are checked. -/
def beginLogin (throttle : AuthThrottle) (now : Nat) (clientIp : IpAddr) (body : LoginRequest) :
    Except AppError Unit × AuthThrottle :=
  match countAuthRequest externals state throttle now clientIp .credential with
  | (.error error, throttle) => (.error error, throttle)
  | (.ok (), throttle) =>
      if body.username = "" ∨ body.authToken = "" then
        (.error (.badRequest "username and auth_token are required"), throttle)
      else
        match throttle.lockoutRemaining externals.toLowercase now body.username .password with
        | (some remaining, throttle) =>
            (.error (.tooManyRequests
              "too many failed sign-in attempts; please wait and try again"
              (max (remaining / 10 ^ 9) 1)), throttle)
        | (none, throttle) => (.ok (), throttle)

/-- A wrong name or a wrong password, on record. -/
def refuseLogin (throttle : AuthThrottle) (now : Nat) (body : LoginRequest) :
    Except AppError LoginResponse × AuthThrottle :=
  (.error (.unauthorized "invalid credentials"),
    throttle.recordFailure externals.toLowercase now body.username .password
      state.settings.failedLoginThreshold state.settings.failedLoginLockoutMinutes)

/-- `login` from where the account is loaded. -/
def concludeLogin (throttle : AuthThrottle) (now : Nat) (body : LoginRequest) :
    Except AppError LoginResponse × AuthThrottle :=
  match state.loadUserByUsername body.username with
  | none => refuseLogin externals state throttle now body
  | some user =>
      if user.isLocked then
        (.error (.unauthorized "account is locked"), throttle)
      -- An account without a password is refused, and kept off the counter.
      else if user.authHash = "" then
        (.error (.unauthorized "invalid credentials"), throttle)
      else
        match externals.verifyAuthToken body.authToken user.authHash with
        | .error _ => refuseLogin externals state throttle now body
        | .ok () =>
            (do
              let accessToken ← externals.issueAccessToken user.id user.keyVersion
              let refreshToken ← externals.issueRefreshToken user.id user.keyVersion
              return {
                accessToken, refreshToken
                classicalPublicKey := user.classicalPublicKey
                pqPublicKey := user.pqPublicKey
                classicalPrivEncrypted := user.classicalPrivEncrypted
                pqPrivEncrypted := user.pqPrivEncrypted
                argon2Salt := user.argon2Salt
                argon2Params := user.argon2Params
                keyVersion := user.keyVersion },
              throttle.recordSuccess externals.toLowercase body.username .password)

/-- The throttle, and the sign-ins that passed the check, by their number. -/
structure Logins where
  throttle : AuthThrottle
  pending : Nat → Option LoginRequest

/-- No sign-in was ever made. -/
def Logins.new : Logins := ⟨.new, fun _ => none⟩

/-- A sign-in arrives, or goes on after it waited. -/
inductive LoginStep
  | begin (number now : Nat) (clientIp : IpAddr) (body : LoginRequest)
  | conclude (number now : Nat)
  deriving DecidableEq

/-- Sign-ins, interleaved in any way. A step answers the request it ends. -/
def serveLogins : Machine Logins LoginStep (Option (Except AppError LoginResponse)) :=
  fun logins step =>
    match step with
    | .begin number now clientIp body =>
        match beginLogin externals state logins.throttle now clientIp body with
        | (.error error, throttle) => (some (.error error), { logins with throttle })
        | (.ok (), throttle) =>
            (none, ⟨throttle, Function.update logins.pending number (some body)⟩)
    | .conclude number now =>
        match logins.pending number with
        | none => (none, logins)
        | some body =>
            let answer := concludeLogin externals state logins.throttle now body
            (some answer.1, ⟨answer.2, Function.update logins.pending number none⟩)

end Routes

/-! ### Wrong tokens -/

section WrongTokens

variable {externals : Externals} {state state' : AuthSqlState}

/-- A token no account of the name is signed in with. -/
def WrongToken (externals : Externals) (state : AuthSqlState) (body : LoginRequest) :
    Prop :=
  ∀ user, state.loadUserByUsername body.username = some user → user.authHash ≠ "" →
    ∃ error, externals.verifyAuthToken body.authToken user.authHash = .error error

/-- The bodies of the step carry wrong tokens. -/
def LoginStep.Wrong (externals : Externals) (state : AuthSqlState) : LoginStep → Prop
  | .begin _ _ _ body => WrongToken externals state body
  | .conclude _ _ => True

/-- No account of the name, or one that signs in with a password and is not
locked. -/
def NoneOrPassword (state : AuthSqlState) (username : String) : Prop :=
  ∀ user, state.loadUserByUsername username = some user → user.isLocked = false ∧ user.authHash ≠ ""

/-- An account that is not locked and has no password. -/
def FederatedOnly (state : AuthSqlState) (username : String) : Prop :=
  ∃ user, state.loadUserByUsername username = some user ∧ user.isLocked = false ∧ user.authHash = ""

/-- The two states differ in the accounts of one name at most. -/
structure SameElsewhere (username : String) (state state' : AuthSqlState) : Prop where
  settings : state'.settings = state.settings
  users : ∀ other, other ≠ username →
    state'.loadUserByUsername other = state.loadUserByUsername other

/-- Up to the lock, the accounts are not looked at. -/
theorem beginLogin_congr (settings : state'.settings = state.settings)
    (throttle : AuthThrottle) (now : Nat) (clientIp : IpAddr) (body : LoginRequest) :
    beginLogin externals state' throttle now clientIp body =
      beginLogin externals state throttle now clientIp body := by
  unfold beginLogin countAuthRequest
  rw [settings]

/-- A wrong token is refused and recorded, whether the account exists or not. -/
theorem concludeLogin_of_noneOrPassword
    {body : LoginRequest} (kind : NoneOrPassword state body.username)
    (wrong : WrongToken externals state body) (throttle : AuthThrottle) (now : Nat) :
    concludeLogin externals state throttle now body =
      refuseLogin externals state throttle now body := by
  unfold concludeLogin
  cases loaded : state.loadUserByUsername body.username with
  | none => rfl
  | some user =>
      obtain ⟨unlocked, password⟩ := kind user loaded
      obtain ⟨error, refused⟩ := wrong user loaded password
      simp only [unlocked, Bool.false_eq_true, if_false, if_neg password, refused]

/-- An account without a password is refused, and nothing is recorded. -/
theorem concludeLogin_of_federatedOnly
    {body : LoginRequest} (kind : FederatedOnly state body.username)
    (throttle : AuthThrottle) (now : Nat) :
    concludeLogin externals state throttle now body =
      (.error (.unauthorized "invalid credentials"), throttle) := by
  obtain ⟨user, loaded, unlocked, noPassword⟩ := kind
  unfold concludeLogin
  simp only [loaded, unlocked, Bool.false_eq_true, if_false, if_pos noPassword]

/-- For a wrong token it does not matter whether the name has no account or an
unlocked one with a password. -/
theorem concludeLogin_congr {username : String} (same : SameElsewhere username state state')
    (kind : NoneOrPassword state username) (kind' : NoneOrPassword state' username)
    {body : LoginRequest} (wrong : WrongToken externals state body)
    (wrong' : WrongToken externals state' body) (throttle : AuthThrottle) (now : Nat) :
    concludeLogin externals state' throttle now body =
      concludeLogin externals state throttle now body := by
  by_cases own : body.username = username
  · rw [concludeLogin_of_noneOrPassword (own ▸ kind) wrong,
      concludeLogin_of_noneOrPassword (own ▸ kind') wrong', refuseLogin, refuseLogin,
      same.settings]
  · unfold concludeLogin refuseLogin
    rw [same.users body.username own, same.settings]

end WrongTokens

/-- Sequences of sign-ins with wrong tokens, however they overlap, are answered alike
in two states that differ only in whether a name has no account or an unlocked one
with a password; a sign-in to an account without one is refused without being
counted. -/
theorem wrong_tokens_answered_alike
    (externals : Externals) {state state' : AuthSqlState} {username : String}
    (same : SameElsewhere username state state') :
    (NoneOrPassword state username → NoneOrPassword state' username →
      ∀ steps : List LoginStep,
        (∀ step ∈ steps, step.Wrong externals state ∧ step.Wrong externals state') →
        (serveLogins externals state').transcript .new steps =
          (serveLogins externals state).transcript .new steps) ∧
    (FederatedOnly state' username → ∀ (throttle : AuthThrottle) (now : Nat) authToken,
      concludeLogin externals state' throttle now ⟨username, authToken⟩ =
        (.error (.unauthorized "invalid credentials"), throttle)) := by
  refine ⟨fun kind kind' steps wrong => ?_, fun federated throttle now authToken =>
    concludeLogin_of_federatedOnly federated throttle now⟩
  -- Every sign-in that waits carries a wrong token.
  refine Machine.transcript_eq_of_simulation
    (fun step => step.Wrong externals state ∧ step.Wrong externals state')
    (fun logins' logins => logins' = logins ∧ ∀ number body,
      logins.pending number = some body →
        WrongToken externals state body ∧ WrongToken externals state' body)
    ?_ wrong ⟨rfl, fun _ _ none => by cases none⟩
  rintro step logins' logins ⟨rfl, waiting⟩ allowed
  cases step with
  | begin number now clientIp body =>
      simp only [serveLogins]
      rw [beginLogin_congr same.settings]
      cases begun : beginLogin externals state logins'.throttle now clientIp body with
      | mk answer throttle =>
          cases answer with
          | error error => exact ⟨rfl, rfl, waiting⟩
          | ok passed =>
              refine ⟨rfl, rfl, fun other body' found => ?_⟩
              change Function.update logins'.pending number (some body) other = some body' at found
              by_cases own : other = number
              · subst own
                rw [Function.update_self, Option.some.injEq] at found
                exact found ▸ allowed
              · rw [Function.update_of_ne own] at found
                exact waiting other body' found
  | conclude number now =>
      simp only [serveLogins]
      cases found : logins'.pending number with
      | none => exact ⟨rfl, rfl, waiting⟩
      | some body =>
          obtain ⟨wrongHere, wrongThere⟩ := waiting number body found
          simp only [concludeLogin_congr same kind kind' wrongHere wrongThere, true_and]
          intro other body' present
          change Function.update logins'.pending number none other = some body' at present
          by_cases own : other = number
          · subst own
            rw [Function.update_self] at present
            cases present
          · rw [Function.update_of_ne own] at present
            exact waiting other body' present

section Sample

/-- Exact arithmetic, ASCII names, tokens that are verified by comparing them. -/
def sampleExternals : Externals where
  arithmetic := .exact
  toLowercase := toAsciiLowercase
  hmacSha256 _ _ := List.replicate 32 0
  verifyAuthToken authToken storedHash :=
    if authToken = storedHash then .ok () else .error (.unauthorized "invalid credentials")
  issueAccessToken _ _ := .ok "access"
  issueRefreshToken _ _ := .ok "refresh"

/-- An account of the name with the password hash. -/
def sampleAccount (username authHash : String) : StoredUser :=
  { shellAccount with username := username, authHash := authHash }
where
  shellAccount : StoredUser :=
    { id := "u1", username := "", authHash := "", argon2Salt := "salt"
      argon2Params := Argon2Params.default, classicalPublicKey := "x"
      pqPublicKey := "y", classicalPrivEncrypted := "xs", pqPrivEncrypted := "ys"
      keyVersion := 1, createdAt := 0, isLocked := false }

/-- A state with these accounts that locks at the first failure. -/
def sampleState (users : Table StoredUser.username) : AuthSqlState where
  users := users
  settings := { InstanceSettings.default 0 with failedLoginThreshold := 1 }
  saltPepper := []

def noAccounts : AuthSqlState := sampleState Table.empty

def oneAccount (authHash : String) : AuthSqlState :=
  sampleState ⟨[sampleAccount "bob" authHash], List.nodup_singleton _⟩

/-- Two attempts on one name, one after the other. -/
def twoAttempts : List LoginStep :=
  [.begin 0 0 (IpAddr.ofOctets 203 0 113 7) ⟨"bob", "guess"⟩, .conclude 0 1,
    .begin 1 2 (IpAddr.ofOctets 203 0 113 7) ⟨"bob", "guess"⟩]

theorem sameElsewhere_oneAccount (authHash : String) :
    SameElsewhere "bob" noAccounts (oneAccount authHash) where
  settings := rfl
  users other different := by
    have unknown : ¬ (sampleAccount "bob" authHash).username = other :=
      fun equal => different equal.symm
    simp [AuthSqlState.loadUserByUsername, Table.find?, oneAccount, noAccounts,
      sampleState, Table.empty, unknown]

theorem wrong_tokens_answered_alike_sample :
    (serveLogins sampleExternals (oneAccount "hash")).transcript .new twoAttempts =
      (serveLogins sampleExternals noAccounts).transcript .new twoAttempts :=
  (wrong_tokens_answered_alike sampleExternals (sameElsewhere_oneAccount "hash")).1
    (fun _ loaded => by cases loaded)
    (fun user loaded => by
      cases Option.some.inj loaded
      decide +kernel)
    twoAttempts (by
      intro step present
      have wrong : ∀ body : LoginRequest, body.authToken = "guess" →
          WrongToken sampleExternals noAccounts body ∧
            WrongToken sampleExternals (oneAccount "hash") body := by
        intro body guess
        refine ⟨(fun user loaded => by cases loaded), fun user loaded _ => ?_⟩
        obtain ⟨isUser, _⟩ := Table.find?_eq_some.mp loaded
        cases List.mem_singleton.mp isUser
        exact ⟨.unauthorized "invalid credentials", by rw [guess]; decide +kernel⟩
      simp only [twoAttempts, List.mem_cons, List.not_mem_nil, or_false] at present
      rcases present with rfl | rfl | rfl
      · exact wrong _ rfl
      · exact ⟨trivial, trivial⟩
      · exact wrong _ rfl)

/-- After one wrong token a name without an account is locked, and an account that
signs in through a provider is not. -/
theorem federated_account_not_counted :
    ¬ ∀ (externals : Externals) (state state' : AuthSqlState) (username : String),
      SameElsewhere username state state' →
      NoneOrPassword state username →
      NoneOrPassword state' username ∨ FederatedOnly state' username →
      ∀ steps : List LoginStep,
        (∀ step ∈ steps, step.Wrong externals state ∧ step.Wrong externals state') →
        (serveLogins externals state').transcript .new steps =
          (serveLogins externals state).transcript .new steps := by
  intro claimed
  have answer := claimed sampleExternals noAccounts (oneAccount "") "bob"
    (sameElsewhere_oneAccount "") (fun _ loaded => by cases loaded)
    (.inr ⟨sampleAccount "bob" "", by decide +kernel, rfl, rfl⟩) twoAttempts (by
      intro step _
      have wrong : ∀ body : LoginRequest,
          WrongToken sampleExternals noAccounts body ∧
            WrongToken sampleExternals (oneAccount "") body := by
        refine fun body => ⟨(fun user loaded => by cases loaded), fun user loaded password => ?_⟩
        obtain ⟨isUser, _⟩ := Table.find?_eq_some.mp loaded
        cases List.mem_singleton.mp isUser
        exact absurd rfl password
      cases step with
      | begin number now clientIp body => exact wrong body
      | conclude number now => exact ⟨trivial, trivial⟩)
  revert answer
  decide +kernel

end Sample

end Accounts
end MindMapVault
