import MindMapVault.Foundations.Machine
import MindMapVault.Foundations.Rounding
import MindMapVault.Throttle.InstanceSettings
import MindMapVault.Throttle.IpAddr
import Mathlib.Logic.Function.Basic

/-!
# The throttle of the sign-in routes

A token bucket for every address and class of request, and a counter of failed
sign-ins for every credential. Each call reads the clock once and holds the lock
while it changes the state, so calls take effect one at a time. An `Instant` and a
`Duration` are numbers of nanoseconds. How arithmetic on tokens is rounded, and how
names are put in lower case, are parameters.
-/

namespace MindMapVault
namespace Throttle

/-- `Duration::from_secs`. -/
def fromSecs (seconds : Nat) : Nat := seconds * 10 ^ 9

/-- `WINDOW`: limits are per minute. -/
def window : Nat := fromSecs 60

/-- `AttemptClass`. -/
inductive AttemptClass
  | lookup
  | credential
  deriving DecidableEq

/-- The limit a class of requests is held to. -/
def InstanceSettings.limit (settings : InstanceSettings) : AttemptClass → Int
  | .lookup => settings.lookupRateLimitPerMinute
  | .credential => settings.authRateLimitPerMinute

theorem InstanceSettings.InRange.limit_le {settings : InstanceSettings} (inRange : settings.InRange)
    (attemptClass : AttemptClass) : settings.limit attemptClass ≤ 100000 := by
  cases attemptClass
  · exact inRange.lookupRateLimit.2
  · exact inRange.authRateLimit.2

/-- `CredentialKind`. -/
inductive CredentialKind
  | password
  deriving DecidableEq

/-- `Bucket`. -/
structure Bucket where
  tokens : ℚ
  lastRefill : Nat
  deriving DecidableEq

/-- `Failures`. -/
structure Failures where
  count : Int
  lastSeen : Nat
  lockedUntil : Option Nat
  deriving DecidableEq

/-- `ThrottleState`. -/
structure AuthThrottle where
  addresses : IpAddr × AttemptClass → Option Bucket
  failures : String × CredentialKind → Option Failures

/-! ### The address buckets -/

section Buckets

variable (arithmetic : Rounding)

/-- `Duration::as_secs_f64`. -/
def asSecsF64 (duration : Nat) : ℚ :=
  arithmetic.round (arithmetic.round (duration / 10 ^ 9 : Nat) +
    arithmetic.round ((duration % 10 ^ 9 : Nat) / 10 ^ 9))

/-- `Duration::from_secs_f64`. -/
def fromSecsF64 (seconds : ℚ) : Nat := (roundHalfEven (seconds * 10 ^ 9)).toNat

/-- Tokens earned back a second. -/
def perSecond (limit : Int) : ℚ := arithmetic.round ((limit : ℚ) / 60)

/-- The tokens a bucket holds once what it earned since is added. -/
def Bucket.refilled (limit : Int) (now : Nat) (bucket : Bucket) : ℚ :=
  min
    (arithmetic.round (bucket.tokens +
      arithmetic.round
        (asSecsF64 arithmetic (now - bucket.lastRefill) * perSecond arithmetic limit)))
    limit

/-- Spend one of so many tokens. -/
def spend (limit : Int) (now : Nat) (tokens : ℚ) :
    Except Nat Unit × Bucket :=
  if tokens < 1 then
    let shortfall := arithmetic.round (1 - tokens)
    (.error (fromSecsF64 (arithmetic.round (shortfall / perSecond arithmetic limit))),
      ⟨tokens, now⟩)
  else
    (.ok (), ⟨arithmetic.round (tokens - 1), now⟩)

end Buckets

namespace AuthThrottle

/-- `AuthThrottle::new`. -/
def new : AuthThrottle := ⟨fun _ => none, fun _ => none⟩

/-- The bucket of an address, a full one where there is none yet. -/
def bucket (throttle : AuthThrottle) (limit : Int) (now : Nat)
    (key : IpAddr × AttemptClass) : Bucket :=
  (throttle.addresses key).getD ⟨limit, now⟩

/-- `AuthThrottle::check_address`. -/
def checkAddress (arithmetic : Rounding) (throttle : AuthThrottle) (now : Nat)
    (address : IpAddr) (attemptClass : AttemptClass) (limit : Int) :
    Except Nat Unit × AuthThrottle :=
  if limit ≤ 0 then (.ok (), throttle)
  else
    let key := (address, attemptClass)
    let tokens := (throttle.bucket limit now key).refilled arithmetic limit now
    let spent := spend arithmetic limit now tokens
    (spent.1, { throttle with
      addresses := Function.update throttle.addresses key (some spent.2) })

end AuthThrottle

/-! ### The failed sign-ins -/

section Names

variable (toLowercase : String → String)

/-- `str::to_lowercase` on names of ASCII letters. -/
def toAsciiLowercase (text : String) : String := String.ofList (text.toList.map Char.toLower)

/-- `normalize`. -/
def normalize (username : String) : String := toLowercase (Vault.trim username)

namespace AuthThrottle

/-- Forget what is known of a credential. -/
def removeFailures (throttle : AuthThrottle) (key : String × CredentialKind) :
    AuthThrottle :=
  { throttle with failures := Function.update throttle.failures key none }

/-- `AuthThrottle::lockout_remaining`. -/
def lockoutRemaining (throttle : AuthThrottle) (now : Nat)
    (username : String) (kind : CredentialKind) :
    Option Nat × AuthThrottle :=
  let key := (normalize toLowercase username, kind)
  match (throttle.failures key).bind Failures.lockedUntil with
  | none => (none, throttle)
  | some lockedUntil =>
      -- An expired lock is cleared, and the count with it.
      if lockedUntil ≤ now then (none, throttle.removeFailures key)
      else (some (lockedUntil - now), throttle)

end AuthThrottle

/-- How long a lock lasts: at least a minute. -/
def lockoutLength (lockoutMinutes : Int) : Nat := fromSecs ((max lockoutMinutes 1).toNat * 60)

/-- The count a failure brings a record to. -/
def Failures.nextCount (record : Failures) (now : Nat) (lockout : Nat) : Int :=
  (if lockout < now - record.lastSeen then 0 else record.count) + 1

/-- The record after one more failure. -/
def Failures.next (record : Failures) (now : Nat) (threshold : Int) (lockout : Nat) :
    Failures :=
  if threshold ≤ record.nextCount now lockout then
    ⟨0, now, some (now + lockout)⟩
  else
    ⟨record.nextCount now lockout, now, record.lockedUntil⟩

namespace AuthThrottle

/-- The record of a credential, an empty one where there is none yet. -/
def record (throttle : AuthThrottle) (now : Nat) (key : String × CredentialKind) :
    Failures :=
  (throttle.failures key).getD ⟨0, now, none⟩

/-- `AuthThrottle::record_failure`. -/
def recordFailure (throttle : AuthThrottle) (now : Nat) (username : String) (kind : CredentialKind)
    (threshold lockoutMinutes : Int) : AuthThrottle :=
  if threshold ≤ 0 then throttle
  else
    let key := (normalize toLowercase username, kind)
    let next := (throttle.record now key).next now threshold (lockoutLength lockoutMinutes)
    { throttle with failures := Function.update throttle.failures key (some next) }

/-- `AuthThrottle::record_success`. -/
def recordSuccess (throttle : AuthThrottle) (username : String) (kind : CredentialKind) :
    AuthThrottle :=
  throttle.removeFailures (normalize toLowercase username, kind)

end AuthThrottle

end Names

/-- A bucket is kept until it has been left alone for a window. -/
def Bucket.keeps (now : Nat) (bucket : Bucket) : Bool := now - bucket.lastRefill < window

/-- A record is kept while its lock lasts, and for a day after its last failure. -/
def Failures.keeps (now : Nat) (record : Failures) : Bool :=
  record.lockedUntil.any (now < ·) || now - record.lastSeen < fromSecs (24 * 60 * 60)

/-- `AuthThrottle::prune`. -/
def AuthThrottle.prune (throttle : AuthThrottle) (now : Nat) : AuthThrottle where
  addresses key := (throttle.addresses key).filter (Bucket.keeps now)
  failures key := (throttle.failures key).filter (Failures.keeps now)

/-! ### What a call does to one key -/

section Keys

variable {toLowercase : String → String} {throttle : AuthThrottle} {now : Nat}

theorem checkAddress_of_limit
    {arithmetic : Rounding} {address : IpAddr} {attemptClass : AttemptClass}
    {limit : Int} (positive : 0 < limit) :
    throttle.checkAddress arithmetic now address attemptClass limit =
      ((spend arithmetic limit now
          ((throttle.bucket limit now (address, attemptClass)).refilled arithmetic limit now)).1,
        { throttle with
          addresses := Function.update throttle.addresses (address, attemptClass)
            (some (spend arithmetic limit now
              ((throttle.bucket limit now (address, attemptClass)).refilled arithmetic
                limit now)).2) }) := by
  rw [AuthThrottle.checkAddress, if_neg (by omega)]

theorem checkAddress_of_no_limit
    {arithmetic : Rounding} {address : IpAddr} {attemptClass : AttemptClass}
    {limit : Int} (off : limit ≤ 0) :
    throttle.checkAddress arithmetic now address attemptClass limit = (.ok (), throttle) :=
  if_pos off

@[simp] theorem failures_removeFailures (key : String × CredentialKind) :
    (throttle.removeFailures key).failures = Function.update throttle.failures key none := rfl

@[simp] theorem failures_checkAddress
    (arithmetic : Rounding) (address : IpAddr) (attemptClass : AttemptClass)
    (limit : Int) :
    (throttle.checkAddress arithmetic now address attemptClass limit).2.failures =
      throttle.failures := by
  unfold AuthThrottle.checkAddress
  split_ifs <;> rfl

@[simp] theorem addresses_recordFailure
    (username : String) (kind : CredentialKind) (threshold lockoutMinutes : Int) :
    (throttle.recordFailure toLowercase now username kind threshold
      lockoutMinutes).addresses = throttle.addresses := by
  unfold AuthThrottle.recordFailure
  split_ifs <;> rfl

@[simp] theorem addresses_recordSuccess
    (username : String) (kind : CredentialKind) :
    (throttle.recordSuccess toLowercase username kind).addresses = throttle.addresses := rfl

/-- The end of the lock of a credential, if it has one. -/
def AuthThrottle.lockedUntil (throttle : AuthThrottle) (key : String × CredentialKind) :
    Option Nat :=
  (throttle.failures key).bind Failures.lockedUntil

section Lockout

variable {username : String} {kind : CredentialKind} {lockedUntil : Nat}

theorem lockoutRemaining_of_unlocked
    (unlocked : throttle.lockedUntil (normalize toLowercase username, kind) = none) :
    throttle.lockoutRemaining toLowercase now username kind = (none, throttle) := by
  unfold AuthThrottle.lockedUntil at unlocked
  simp only [AuthThrottle.lockoutRemaining, unlocked]

theorem lockoutRemaining_of_expired
    (locked : throttle.lockedUntil (normalize toLowercase username, kind) = some lockedUntil)
    (expired : lockedUntil ≤ now) :
    throttle.lockoutRemaining toLowercase now username kind =
      (none, throttle.removeFailures (normalize toLowercase username, kind)) := by
  unfold AuthThrottle.lockedUntil at locked
  simp only [AuthThrottle.lockoutRemaining, locked, if_pos expired]

theorem lockoutRemaining_of_locked
    (locked : throttle.lockedUntil (normalize toLowercase username, kind) = some lockedUntil)
    (lasts : now < lockedUntil) :
    throttle.lockoutRemaining toLowercase now username kind =
      (some (lockedUntil - now), throttle) := by
  unfold AuthThrottle.lockedUntil at locked
  simp only [AuthThrottle.lockoutRemaining, locked, if_neg (by omega : ¬ lockedUntil ≤ now)]

/-- Asking changes nothing, except that it clears an expired lock of its key. -/
theorem lockoutRemaining_state
    (toLowercase : String → String) (throttle : AuthThrottle) (now : Nat) (username : String)
    (kind : CredentialKind) :
    (throttle.lockoutRemaining toLowercase now username kind).2 = throttle ∨
      (throttle.lockoutRemaining toLowercase now username kind).2 =
          throttle.removeFailures (normalize toLowercase username, kind) ∧
        ∃ lockedUntil, throttle.lockedUntil (normalize toLowercase username, kind) =
          some lockedUntil ∧ lockedUntil ≤ now := by
  cases locked : throttle.lockedUntil (normalize toLowercase username, kind) with
  | none =>
      rw [lockoutRemaining_of_unlocked locked]
      exact .inl rfl
  | some lockedUntil =>
      by_cases expired : lockedUntil ≤ now
      · rw [lockoutRemaining_of_expired locked expired]
        exact .inr ⟨rfl, lockedUntil, rfl, expired⟩
      · rw [lockoutRemaining_of_locked locked (by omega)]
        exact .inl rfl

end Lockout

@[simp] theorem addresses_lockoutRemaining
    (username : String) (kind : CredentialKind) :
    (throttle.lockoutRemaining toLowercase now username kind).2.addresses = throttle.addresses := by
  rcases lockoutRemaining_state toLowercase throttle now username kind with
    same | ⟨cleared, _⟩
  · rw [same]
  · rw [cleared]
    rfl

/-- A failure changes the record of its own key. -/
theorem failures_recordFailure (toLowercase : String → String) (throttle : AuthThrottle) (now : Nat)
    (username : String) (kind : CredentialKind) {threshold : Int}
    (positive : 0 < threshold) (lockoutMinutes : Int) :
    (throttle.recordFailure toLowercase now username kind threshold
      lockoutMinutes).failures =
      Function.update throttle.failures (normalize toLowercase username, kind)
        (some ((throttle.record now (normalize toLowercase username, kind)).next now
          threshold (lockoutLength lockoutMinutes))) := by
  rw [AuthThrottle.recordFailure, if_neg (by omega)]

end Keys

/-! ### The throttle as a machine -/

/-- A call of one of the throttle's methods. -/
inductive Call
  | checkAddress (address : IpAddr) (attemptClass : AttemptClass) (limit : Int)
  | lockoutRemaining (username : String) (kind : CredentialKind)
  | recordFailure (username : String) (kind : CredentialKind) (threshold lockoutMinutes : Int)
  | recordSuccess (username : String) (kind : CredentialKind)
  | prune
  deriving DecidableEq

/-- A call and the time it reads. -/
structure Timed where
  now : Nat
  call : Call
  deriving DecidableEq

/-- What a call returns. -/
inductive Reply
  | checked (result : Except Nat Unit)
  | lockout (remaining : Option Nat)
  | done
  deriving DecidableEq

/-- The throttle, one call after another. -/
def AuthThrottle.serve (arithmetic : Rounding) (toLowercase : String → String) :
    Machine AuthThrottle Timed Reply := fun throttle timed =>
  match timed.call with
  | .checkAddress address attemptClass limit =>
      let answer := throttle.checkAddress arithmetic timed.now address attemptClass limit
      (.checked answer.1, answer.2)
  | .lockoutRemaining username kind =>
      let answer := throttle.lockoutRemaining toLowercase timed.now username kind
      (.lockout answer.1, answer.2)
  | .recordFailure username kind threshold lockoutMinutes =>
      (.done, throttle.recordFailure toLowercase timed.now username kind threshold lockoutMinutes)
  | .recordSuccess username kind =>
      (.done, throttle.recordSuccess toLowercase username kind)
  | .prune => (.done, throttle.prune timed.now)

/-- Calls take effect in the order of their times. Each reads the clock before it waits for
the mutex, so this orders calls that race for it by what they read. -/
def InOrder (calls : List Timed) : Prop :=
  calls.Pairwise fun earlier later => earlier.now ≤ later.now

instance (calls : List Timed) : Decidable (InOrder calls) :=
  inferInstanceAs (Decidable (calls.Pairwise _))

end Throttle
end MindMapVault
