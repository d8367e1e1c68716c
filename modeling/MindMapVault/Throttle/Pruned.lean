import MindMapVault.Throttle.AuthThrottle

/-!
# Pruning is not seen

The background timer drops buckets that were left alone for a minute and records of
failures that hold no lock and are a day old. A dropped bucket would have been full
at its next use, and a dropped record would have been counted from zero: the
throttle with pruning and the one without it stay in a simulation, however the
settings change within their ranges, and however arithmetic on tokens is rounded.
-/

namespace MindMapVault
namespace Throttle

/-- How a sign-in attempt ends once it was let through. -/
inductive Ending
  | failed
  | succeeded
  | unrecorded
  deriving DecidableEq

/-- What the throttle is used for, with the settings in force at the time. -/
inductive Visit
  | checkAddress (address : IpAddr) (attemptClass : AttemptClass) (settings : AcceptedSettings)
  | attempt (username : String) (kind : CredentialKind) (ending : Ending)
      (settings : AcceptedSettings)
  | prune

/-- A visit and its time. -/
structure TimedVisit where
  now : Nat
  visit : Visit

/-- The visit is a call of the background timer. -/
def TimedVisit.isPrune (timed : TimedVisit) : Bool :=
  match timed.visit with
  | .prune => true
  | _ => false

/-- What a visit is answered. -/
inductive VisitReply
  | checked (result : Except Nat Unit)
  | refused (remaining : Nat)
  | letThrough
  | pruned
  deriving DecidableEq

namespace AuthThrottle

variable (toLowercase : String → String)

/-- Record how an attempt ended. -/
def recordEnding (throttle : AuthThrottle) (now : Nat) (username : String) (kind : CredentialKind)
    (settings : InstanceSettings) : Ending → AuthThrottle
  | .failed => throttle.recordFailure toLowercase now username kind
      settings.failedLoginThreshold settings.failedLoginLockoutMinutes
  | .succeeded => throttle.recordSuccess toLowercase username kind
  | .unrecorded => throttle

/-- A sign-in attempt that reads the lock and records its ending in one step. -/
def attempt (throttle : AuthThrottle) (now : Nat) (username : String) (kind : CredentialKind)
    (ending : Ending) (settings : InstanceSettings) : VisitReply × AuthThrottle :=
  match throttle.lockoutRemaining toLowercase now username kind with
  | (some remaining, throttle) => (.refused remaining, throttle)
  | (none, throttle) =>
      (.letThrough, throttle.recordEnding toLowercase now username kind settings ending)

/-- One visit after another. -/
def visit (arithmetic : Rounding) : Machine AuthThrottle TimedVisit VisitReply :=
  fun throttle timed =>
    match timed.visit with
    | .checkAddress address attemptClass settings =>
        let answer := throttle.checkAddress arithmetic timed.now address attemptClass
          (settings.val.limit attemptClass)
        (.checked answer.1, answer.2)
    | .attempt username kind ending settings =>
        throttle.attempt toLowercase timed.now username kind ending settings.val
    | .prune => (.pruned, throttle.prune timed.now)

end AuthThrottle

/-- Visits in the order of their times, each pruning strictly before the next
call. -/
def Interleaved (visits : List TimedVisit) : Prop :=
  visits.Pairwise fun earlier later => earlier.now ≤ later.now ∧
    (earlier.isPrune = true → later.isPrune = false → earlier.now < later.now)

instance (visits : List TimedVisit) : Decidable (Interleaved visits) :=
  inferInstanceAs (Decidable (visits.Pairwise _))

/-! ### A bucket that was left alone for more than a window is full -/

section Refill

variable (arithmetic : Rounding)

theorem asSecsF64_nonneg (duration : Nat) : 0 ≤ asSecsF64 arithmetic duration := by
  refine arithmetic.round_nonneg (add_nonneg ?_ ?_)
  · exact arithmetic.round_nonneg (Nat.cast_nonneg _)
  · exact arithmetic.round_nonneg (by positivity)

@[simp] theorem asSecsF64_zero : asSecsF64 arithmetic 0 = 0 := by
  simp [asSecsF64]

theorem perSecond_nonneg {limit : Int} (nonneg : 0 ≤ limit) :
    0 ≤ perSecond arithmetic limit := by
  have cast : (0 : ℚ) ≤ limit := by exact_mod_cast nonneg
  exact arithmetic.round_nonneg (by positivity)

/-- A nanosecond more than a minute is more than a minute by more than rounding
can lose. -/
theorem minute_lt_asSecsF64 {duration : Nat} (long : window < duration) :
    60 ≤ asSecsF64 arithmetic duration * (1 - 1 / 2 ^ 53) := by
  have seconds : 60 ≤ duration / 10 ^ 9 := by
    unfold window fromSecs at long
    omega
  have fraction : 0 ≤ arithmetic.round (((duration % 10 ^ 9 : Nat) : ℚ) / 10 ^ 9) :=
    arithmetic.round_nonneg (by positivity)
  by_cases more : 61 ≤ duration / 10 ^ 9
  · have whole : ((61 : ℕ) : ℚ) ≤ arithmetic.round ((duration / 10 ^ 9 : Nat) : ℚ) :=
      arithmetic.natCast_le_round (by norm_num) (by exact_mod_cast more)
    have total : ((61 : ℕ) : ℚ) ≤ asSecsF64 arithmetic duration :=
      arithmetic.natCast_le_round (by norm_num) (by linarith)
    calc (60 : ℚ) ≤ (61 : ℕ) * (1 - 1 / 2 ^ 53) := by norm_num
      _ ≤ asSecsF64 arithmetic duration * (1 - 1 / 2 ^ 53) :=
          mul_le_mul_of_nonneg_right total (by norm_num)
  · -- Sixty seconds and some nanoseconds.
    have whole : duration / 10 ^ 9 = 60 := by omega
    have rest : 1 ≤ duration % 10 ^ 9 := by
      unfold window fromSecs at long
      omega
    have some_rest : (1 : ℚ) / 10 ^ 9 ≤ ((duration % 10 ^ 9 : Nat) : ℚ) / 10 ^ 9 :=
      div_le_div_of_nonneg_right (by exact_mod_cast rest) (by norm_num)
    have kept : (1 : ℚ) / 10 ^ 9 * (1 - 1 / 2 ^ 53) ≤
        arithmetic.round (((duration % 10 ^ 9 : Nat) : ℚ) / 10 ^ 9) :=
      (mul_le_mul_of_nonneg_right some_rest (by norm_num)).trans (arithmetic.lower some_rest)
    have sixty : arithmetic.round ((60 : ℕ) : ℚ) = ((60 : ℕ) : ℚ) :=
      arithmetic.natCast (by norm_num)
    have sum : (60 : ℚ) + 1 / 10 ^ 9 * (1 - 1 / 2 ^ 53) ≤
        arithmetic.round ((duration / 10 ^ 9 : Nat) : ℚ) +
          arithmetic.round (((duration % 10 ^ 9 : Nat) : ℚ) / 10 ^ 9) := by
      rw [whole, sixty]
      push_cast
      linarith
    have total := arithmetic.lower (le_trans (by norm_num) sum)
    have bound := mul_le_mul_of_nonneg_right sum (by norm_num : (0 : ℚ) ≤ 1 - 1 / 2 ^ 53)
    calc (60 : ℚ) ≤ (60 + 1 / 10 ^ 9 * (1 - 1 / 2 ^ 53)) * (1 - 1 / 2 ^ 53) *
            (1 - 1 / 2 ^ 53) := by norm_num
      _ ≤ asSecsF64 arithmetic duration * (1 - 1 / 2 ^ 53) :=
          mul_le_mul_of_nonneg_right (bound.trans total) (by norm_num)

variable {limit : Int} {now : Nat}

/-- The limit as a natural number, small enough to be rounded to itself. -/
theorem limit_eq_natCast (positive : 0 < limit) (bounded : limit ≤ 100000) :
    ∃ number : ℕ, (limit : ℚ) = (number : ℚ) ∧ 1 ≤ number ∧ number < 2 ^ 53 := by
  refine ⟨limit.toNat, ?_, by omega, by omega⟩
  have cast : ((limit.toNat : ℤ) : ℚ) = (limit : ℚ) := by
    rw [Int.toNat_of_nonneg positive.le]
  exact_mod_cast cast.symm

theorem refilled_nonneg (positive : 0 < limit) {bucket : Bucket} (nonneg : 0 ≤ bucket.tokens) :
    0 ≤ bucket.refilled arithmetic limit now := by
  have earned : 0 ≤ arithmetic.round
      (asSecsF64 arithmetic (now - bucket.lastRefill) * perSecond arithmetic limit) :=
    arithmetic.round_nonneg
      (mul_nonneg (asSecsF64_nonneg arithmetic _) (perSecond_nonneg arithmetic positive.le))
  exact le_min (arithmetic.round_nonneg (by linarith)) (by exact_mod_cast positive.le)

theorem refilled_idle (positive : 0 < limit) (bounded : limit ≤ 100000) {bucket : Bucket}
    (nonneg : 0 ≤ bucket.tokens) (idle : window < now - bucket.lastRefill) :
    bucket.refilled arithmetic limit now = limit := by
  obtain ⟨number, cast, one, small⟩ := limit_eq_natCast positive bounded
  have minute := minute_lt_asSecsF64 arithmetic idle
  have rate : (number : ℚ) / 60 * (1 - 1 / 2 ^ 53) ≤ perSecond arithmetic limit := by
    rw [perSecond, cast]
    refine arithmetic.lower ?_
    have least : (1 : ℚ) ≤ number := by exact_mod_cast one
    calc (1 : ℚ) / 10 ^ 9 ≤ 1 / 60 := by norm_num
      _ ≤ number / 60 := div_le_div_of_nonneg_right least (by norm_num)
  have product : (number : ℚ) ≤
      asSecsF64 arithmetic (now - bucket.lastRefill) * perSecond arithmetic limit := by
    have share : (0 : ℚ) ≤ number / 60 := by positivity
    calc (number : ℚ) = 60 * (number / 60) := by ring
      _ ≤ asSecsF64 arithmetic (now - bucket.lastRefill) * (1 - 1 / 2 ^ 53) *
            (number / 60) := mul_le_mul_of_nonneg_right minute share
      _ = asSecsF64 arithmetic (now - bucket.lastRefill) *
            (number / 60 * (1 - 1 / 2 ^ 53)) := by ring
      _ ≤ asSecsF64 arithmetic (now - bucket.lastRefill) * perSecond arithmetic limit :=
          mul_le_mul_of_nonneg_left rate (asSecsF64_nonneg arithmetic _)
  have earned := arithmetic.natCast_le_round small product
  rw [Bucket.refilled, cast]
  exact min_eq_right (arithmetic.natCast_le_round small (by linarith))

/-- A bucket that is made anew is full. -/
theorem refilled_fresh (positive : 0 < limit) (bounded : limit ≤ 100000) :
    (Bucket.mk limit now).refilled arithmetic limit now = limit := by
  obtain ⟨number, cast, _, small⟩ := limit_eq_natCast positive bounded
  simp only [Bucket.refilled, Nat.sub_self, asSecsF64_zero, zero_mul, Rounding.round_zero, add_zero]
  rw [cast, arithmetic.natCast small, min_self]

end Refill

/-! ### The simulation -/

/-- A key of the pruned throttle holds what the other one holds, or nothing where
the other one holds something the next call will not see. -/
def SameOr {Value : Type} (unseen : Value → Prop) (pruned full : Option Value) : Prop :=
  pruned = full ∨ pruned = none ∧ ∃ value, full = some value ∧ unseen value

/-- A bucket that is full by now. -/
def UnseenBucket (now : Nat) (bucket : Bucket) : Prop := window < now - bucket.lastRefill

/-- A record without a lock in force that is more than a day old by now. -/
def UnseenRecord (now : Nat) (record : Failures) : Prop :=
  (∀ lockedUntil, record.lockedUntil = some lockedUntil → lockedUntil ≤ now) ∧
    fromSecs (24 * 60 * 60) < now - record.lastSeen

/-- The pruned throttle stands for the other one in a call at this time. -/
structure Alike (now : Nat) (pruned full : AuthThrottle) : Prop where
  addresses : ∀ key, SameOr (UnseenBucket now) (pruned.addresses key) (full.addresses key)
  failures : ∀ key, SameOr (UnseenRecord now) (pruned.failures key) (full.failures key)
  nonneg : ∀ key bucket, full.addresses key = some bucket → 0 ≤ bucket.tokens

section SameOr

variable {Value Key : Type} [DecidableEq Key]

theorem SameOr.mono {unseen unseen' : Value → Prop} {pruned full : Option Value}
    (same : SameOr unseen pruned full) (implies : ∀ value, unseen value → unseen' value) :
    SameOr unseen' pruned full :=
  same.imp_right fun ⟨dropped, value, found, hidden⟩ =>
    ⟨dropped, value, found, implies value hidden⟩

/-- Dropping what the next call will not see keeps the relation. -/
theorem SameOr.filter {unseen : Value → Prop} {keeps : Value → Bool} {pruned full : Option Value}
    (same : SameOr unseen pruned full)
    (drops : ∀ value, full = some value → keeps value = false → unseen value) :
    SameOr unseen (pruned.filter keeps) full := by
  rcases same with rfl | ⟨rfl, value, found, hidden⟩
  · cases pruned with
    | none => exact .inl rfl
    | some value =>
        cases kept : keeps value with
        | true => exact .inl (by rw [Option.filter_some, if_pos kept])
        | false =>
            refine .inr ⟨by rw [Option.filter_some, kept, if_neg Bool.false_ne_true],
              value, rfl, drops value rfl kept⟩
  · exact .inr ⟨rfl, value, found, hidden⟩

/-- Writing related values at one key keeps the relation at every key. -/
theorem SameOr.update {unseen : Value → Prop} {pruned full : Key → Option Value}
    (same : ∀ key, SameOr unseen (pruned key) (full key))
    {changed : Key} {left right : Option Value} (written : SameOr unseen left right) (key : Key) :
    SameOr unseen (Function.update pruned changed left key)
      (Function.update full changed right key) := by
  by_cases own : key = changed
  · subst own
    rw [Function.update_self, Function.update_self]
    exact written
  · rw [Function.update_of_ne own, Function.update_of_ne own]
    exact same key

end SameOr

section Steps

variable {now : Nat} {pruned full : AuthThrottle}

theorem Alike.later (alike : Alike now pruned full) {later : Nat} (le : now ≤ later) :
    Alike later pruned full where
  addresses key := (alike.addresses key).mono fun bucket idle => by
    unfold UnseenBucket at idle ⊢
    omega
  failures key := (alike.failures key).mono fun record ⟨unlocked, old⟩ =>
    ⟨fun lockedUntil locked => (unlocked lockedUntil locked).trans le, by omega⟩
  nonneg := alike.nonneg

/-- Pruning before the call changes nothing the call will see. -/
theorem Alike.prune (alike : Alike now pruned full) {time : Nat} (before : time < now) :
    Alike now (pruned.prune time) full where
  addresses key := (alike.addresses key).filter fun bucket _ dropped => by
    have idle : ¬ time - bucket.lastRefill < window := of_decide_eq_false dropped
    have positive : 0 < window := by decide +kernel
    unfold UnseenBucket
    omega
  failures key := (alike.failures key).filter fun record _ dropped => by
    obtain ⟨unlocked, old⟩ := Bool.or_eq_false_iff.mp dropped
    refine ⟨fun lockedUntil locked => ?_, ?_⟩
    · rw [locked, Option.any_some] at unlocked
      have ended : ¬ time < lockedUntil := of_decide_eq_false unlocked
      omega
    · have idle : ¬ time - record.lastSeen < fromSecs (24 * 60 * 60) :=
        of_decide_eq_false old
      have positive : 0 < fromSecs (24 * 60 * 60) := by decide +kernel
      omega
  nonneg := alike.nonneg

theorem spend_nonneg
    (arithmetic : Rounding) (limit : Int) (now : Nat) {tokens : ℚ} (nonneg : 0 ≤ tokens) :
    0 ≤ (spend arithmetic limit now tokens).2.tokens := by
  unfold spend
  split_ifs with empty
  · exact nonneg
  · exact arithmetic.round_nonneg (sub_nonneg.mpr (not_lt.mp empty))

/-- Whether a bucket was dropped cannot be told from the tokens in it. -/
theorem Alike.refilled_eq (arithmetic : Rounding) (alike : Alike now pruned full) {limit : Int}
    (positive : 0 < limit) (bounded : limit ≤ 100000) (key : IpAddr × AttemptClass) :
    (pruned.bucket limit now key).refilled arithmetic limit now =
      (full.bucket limit now key).refilled arithmetic limit now := by
  unfold AuthThrottle.bucket
  rcases alike.addresses key with same | ⟨dropped, bucket, found, idle⟩
  · rw [same]
  · rw [dropped, found, Option.getD_none, Option.getD_some,
      refilled_fresh arithmetic positive bounded,
      refilled_idle arithmetic positive bounded (alike.nonneg key bucket found) idle]

theorem Alike.bucket_nonneg (arithmetic : Rounding) (alike : Alike now pruned full) {limit : Int}
    (positive : 0 < limit) (key : IpAddr × AttemptClass) :
    0 ≤ (full.bucket limit now key).refilled arithmetic limit now := by
  refine refilled_nonneg arithmetic positive ?_
  unfold AuthThrottle.bucket
  cases found : full.addresses key with
  | none =>
      have full : (0 : ℚ) ≤ limit := by exact_mod_cast positive.le
      exact full
  | some bucket => exact alike.nonneg key bucket found

theorem Alike.checkAddress
    (arithmetic : Rounding) (alike : Alike now pruned full) (address : IpAddr)
    (attemptClass : AttemptClass) {limit : Int} (bounded : limit ≤ 100000) :
    (pruned.checkAddress arithmetic now address attemptClass limit).1 =
        (full.checkAddress arithmetic now address attemptClass limit).1 ∧
      Alike now (pruned.checkAddress arithmetic now address attemptClass limit).2
        (full.checkAddress arithmetic now address attemptClass limit).2 := by
  by_cases positive : 0 < limit
  · have tokens := alike.refilled_eq arithmetic positive bounded (address, attemptClass)
    rw [checkAddress_of_limit positive, checkAddress_of_limit positive, tokens]
    refine ⟨rfl, SameOr.update alike.addresses (.inl rfl), alike.failures,
      fun key bucket found => ?_⟩
    change Function.update full.addresses _ _ key = some bucket at found
    by_cases own : key = (address, attemptClass)
    · subst own
      rw [Function.update_self, Option.some.injEq] at found
      rw [← found]
      exact spend_nonneg arithmetic limit now
        (alike.bucket_nonneg arithmetic positive (address, attemptClass))
    · rw [Function.update_of_ne own] at found
      exact alike.nonneg key bucket found
  · rw [checkAddress_of_no_limit (by omega), checkAddress_of_no_limit (by omega)]
    exact ⟨rfl, alike⟩

variable {toLowercase : String → String} {username : String} {kind : CredentialKind}

/-- Reading a lock gives the same answer, and leaves no lock where it gives none. -/
theorem Alike.lockoutRemaining
    (alike : Alike now pruned full) (toLowercase : String → String) (username : String)
    (kind : CredentialKind) :
    (pruned.lockoutRemaining toLowercase now username kind).1 =
        (full.lockoutRemaining toLowercase now username kind).1 ∧
      Alike now (pruned.lockoutRemaining toLowercase now username kind).2
        (full.lockoutRemaining toLowercase now username kind).2 ∧
      ((full.lockoutRemaining toLowercase now username kind).1 = none →
        (full.lockoutRemaining toLowercase now username kind).2.lockedUntil
          (normalize toLowercase username, kind) = none) := by
  have cleared : ∀ throttle : AuthThrottle,
      (throttle.removeFailures (normalize toLowercase username, kind)).lockedUntil
        (normalize toLowercase username, kind) = none := fun throttle => by
    rw [AuthThrottle.lockedUntil, failures_removeFailures, Function.update_self]
    rfl
  rcases alike.failures (normalize toLowercase username, kind) with
    same | ⟨dropped, record, found, unlocked, _⟩
  · have locks : pruned.lockedUntil (normalize toLowercase username, kind) =
        full.lockedUntil (normalize toLowercase username, kind) := by
      rw [AuthThrottle.lockedUntil, AuthThrottle.lockedUntil, same]
    cases locked : full.lockedUntil (normalize toLowercase username, kind) with
    | none =>
        rw [lockoutRemaining_of_unlocked (locks.trans locked), lockoutRemaining_of_unlocked locked]
        exact ⟨rfl, alike, fun _ => locked⟩
    | some lockedUntil =>
        by_cases expired : lockedUntil ≤ now
        · rw [lockoutRemaining_of_expired (locks.trans locked) expired,
            lockoutRemaining_of_expired locked expired]
          exact ⟨rfl, ⟨alike.addresses, SameOr.update alike.failures (.inl rfl),
            alike.nonneg⟩, fun _ => cleared full⟩
        · rw [lockoutRemaining_of_locked (locks.trans locked) (by omega),
            lockoutRemaining_of_locked locked (by omega)]
          exact ⟨rfl, alike, fun refused => by cases refused⟩
  · -- The dropped record held no lock.
    have free : pruned.lockedUntil (normalize toLowercase username, kind) = none := by
      rw [AuthThrottle.lockedUntil, dropped]
      rfl
    rw [lockoutRemaining_of_unlocked free]
    cases locked : full.lockedUntil (normalize toLowercase username, kind) with
    | none =>
        rw [lockoutRemaining_of_unlocked locked]
        exact ⟨rfl, alike, fun _ => locked⟩
    | some lockedUntil =>
        have held : record.lockedUntil = some lockedUntil := by
          rw [AuthThrottle.lockedUntil, found, Option.bind_some] at locked
          exact locked
        rw [lockoutRemaining_of_expired locked (unlocked lockedUntil held)]
        refine ⟨rfl, ⟨alike.addresses, fun key => ?_, alike.nonneg⟩, fun _ => cleared full⟩
        rw [failures_removeFailures]
        by_cases own : key = (normalize toLowercase username, kind)
        · subst own
          rw [Function.update_self]
          exact .inl dropped
        · rw [Function.update_of_ne own]
          exact alike.failures key

theorem lockoutLength_le {lockoutMinutes : Int} (bounded : lockoutMinutes ≤ 1440) :
    lockoutLength lockoutMinutes ≤ fromSecs (24 * 60 * 60) := by
  unfold lockoutLength fromSecs
  omega

/-- A failure is counted the same where no lock is in the way. -/
theorem Alike.recordFailure (alike : Alike now pruned full)
    (unlocked : full.lockedUntil (normalize toLowercase username, kind) = none)
    (threshold : Int) {lockoutMinutes : Int} (bounded : lockoutMinutes ≤ 1440) :
    Alike now
      (pruned.recordFailure toLowercase now username kind threshold lockoutMinutes)
      (full.recordFailure toLowercase now username kind threshold lockoutMinutes) := by
  by_cases positive : 0 < threshold
  · refine ⟨fun key => ?_, fun key => ?_, fun key bucket found => ?_⟩
    · rw [addresses_recordFailure, addresses_recordFailure]
      exact alike.addresses key
    · rw [failures_recordFailure _ _ _ _ _ positive, failures_recordFailure _ _ _ _ _ positive]
      refine SameOr.update alike.failures ?_ key
      rcases alike.failures (normalize toLowercase username, kind) with
        same | ⟨dropped, record, found, _, old⟩
      · exact .inl (by rw [AuthThrottle.record, AuthThrottle.record, same])
      · -- An old record is counted from zero, as a missing one is.
        have free : record.lockedUntil = none := by
          rw [AuthThrottle.lockedUntil, found, Option.bind_some] at unlocked
          exact unlocked
        have short := lockoutLength_le bounded
        have far : lockoutLength lockoutMinutes < now - record.lastSeen := by omega
        refine .inl ?_
        rw [AuthThrottle.record, AuthThrottle.record, dropped, found, Option.getD_none,
          Option.getD_some]
        simp only [Failures.next, Failures.nextCount, if_pos far, free, ite_self]
    · rw [addresses_recordFailure] at found
      exact alike.nonneg key bucket found
  · rw [AuthThrottle.recordFailure, AuthThrottle.recordFailure, if_pos (by omega),
      if_pos (by omega)]
    exact alike

theorem Alike.attempt
    (alike : Alike now pruned full) (ending : Ending) (settings : AcceptedSettings) :
    (pruned.attempt toLowercase now username kind ending settings.val).1 =
        (full.attempt toLowercase now username kind ending settings.val).1 ∧
      Alike now (pruned.attempt toLowercase now username kind ending settings.val).2
        (full.attempt toLowercase now username kind ending settings.val).2 := by
  obtain ⟨same, next, free⟩ := alike.lockoutRemaining toLowercase username kind
  unfold AuthThrottle.attempt
  cases read : pruned.lockoutRemaining toLowercase now username kind with
  | mk remaining pruned' =>
      cases read' : full.lockoutRemaining toLowercase now username kind with
      | mk remaining' full' =>
          rw [read, read'] at same next
          rw [read'] at free
          obtain rfl : remaining = remaining' := same
          cases remaining with
          | some remaining => exact ⟨rfl, next⟩
          | none =>
              refine ⟨rfl, ?_⟩
              cases ending with
              | failed =>
                  exact next.recordFailure (free rfl) _
                    settings.property.failedLoginLockout.2
              | succeeded =>
                  exact ⟨next.addresses, SameOr.update next.failures (.inl rfl), next.nonneg⟩
              | unrecorded => exact next

variable (toLowercase) in
theorem Alike.visit
    (arithmetic : Rounding) {timed : TimedVisit} (alike : Alike timed.now pruned full)
    (call : timed.isPrune = false) :
    (AuthThrottle.visit toLowercase arithmetic pruned timed).1 =
        (AuthThrottle.visit toLowercase arithmetic full timed).1 ∧
      Alike timed.now (AuthThrottle.visit toLowercase arithmetic pruned timed).2
        (AuthThrottle.visit toLowercase arithmetic full timed).2 := by
  obtain ⟨now, visit⟩ := timed
  cases visit with
  | checkAddress address attemptClass settings =>
      obtain ⟨same, next⟩ := Alike.checkAddress arithmetic alike address attemptClass
        (settings.property.limit_le attemptClass)
      exact ⟨congrArg VisitReply.checked same, next⟩
  | attempt username kind ending settings => exact Alike.attempt alike ending settings
  | prune => cases call

end Steps

theorem alike_new (now : Nat) : Alike now .new .new where
  addresses _ := .inl rfl
  failures _ := .inl rfl
  nonneg _ _ found := by cases found

/-- However often the throttle is pruned, every call is answered as if it never
was. -/
theorem pruning_unobservable (arithmetic : Rounding) (toLowercase : String → String)
    {visits : List TimedVisit} (interleaved : Interleaved visits) :
    ((AuthThrottle.visit toLowercase arithmetic).transcript .new visits).filter
        (fun entry => !entry.1.isPrune) =
      (AuthThrottle.visit toLowercase arithmetic).transcript .new
        (visits.filter fun timed => !timed.isPrune) := by
  refine Machine.filter_transcript_of_simulation (fun timed => !timed.isPrune)
    (fun rest pruned full => Interleaved rest ∧
      ∀ timed ∈ rest, timed.isPrune = false → Alike timed.now pruned full) ?_ ?_
    ⟨interleaved, fun timed _ _ => alike_new timed.now⟩
  · rintro timed rest pruned full ⟨order, alike⟩ call
    obtain ⟨after, order⟩ := List.pairwise_cons.mp order
    have isCall : timed.isPrune = false := by
      rwa [Bool.not_eq_true'] at call
    obtain ⟨same, next⟩ := Alike.visit toLowercase arithmetic
      (alike timed List.mem_cons_self isCall) isCall
    exact ⟨same, order, fun later present _ => next.later (after later present).1⟩
  · rintro timed rest pruned full ⟨order, alike⟩ prunes
    obtain ⟨after, later⟩ := List.pairwise_cons.mp order
    have isPrune : timed.isPrune = true := by
      rwa [Bool.not_eq_false'] at prunes
    obtain ⟨now, visit⟩ := timed
    cases visit with
    | prune =>
        refine ⟨later, fun next present isCall => ?_⟩
        exact (alike next (List.mem_cons_of_mem _ present) isCall).prune
          ((after next present).2 isPrune isCall)
    | checkAddress address attemptClass settings => cases isPrune
    | attempt username kind ending settings => cases isPrune

section Sample

/-- The settings of a new instance. -/
def sampleSettings : AcceptedSettings :=
  ⟨InstanceSettings.default 0, InstanceSettings.default_inRange 0⟩

/-- A wrong password, a pruning two days later and one more attempt. -/
def sampleVisits : List TimedVisit :=
  [⟨0, .attempt "alice" .password .failed sampleSettings⟩,
    ⟨fromSecs 172800, .prune⟩,
    ⟨fromSecs 172801, .attempt "alice" .password .failed sampleSettings⟩]

theorem pruning_unobservable_sample :
    ((AuthThrottle.visit toAsciiLowercase .binary64).transcript .new
        sampleVisits).filter (fun entry => !entry.1.isPrune) =
      (AuthThrottle.visit toAsciiLowercase .binary64).transcript .new
        (sampleVisits.filter fun timed => !timed.isPrune) :=
  pruning_unobservable .binary64 toAsciiLowercase (by decide +kernel)

end Sample

end Throttle
end MindMapVault
