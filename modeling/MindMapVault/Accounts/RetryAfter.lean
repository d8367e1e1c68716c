import MindMapVault.Accounts.Login
import MindMapVault.Throttle.Between

/-!
# Coming back after `Retry-After`

A request answered 429 is told to wait a number of seconds: what its address lacks to
a token, or what is left of the lock of its name, cut to whole seconds. Found here is
when the client that waits no longer than it was told is let through. Arithmetic on
tokens is exact; a `Duration` is still a number of nanoseconds.
-/

namespace MindMapVault
namespace Accounts

open Throttle TokenBucket

section Routes

variable (externals : Externals) (state : AuthSqlState)

/-- `start` of the routes of a provider, up to where the provider is looked up. -/
def countStart (throttle : AuthThrottle) (now : Nat) (clientIp : IpAddr) :
    Except AppError Unit × AuthThrottle :=
  let limit := state.settings.authRateLimitPerMinute
  let answer := throttle.checkAddress externals.arithmetic now clientIp .credential limit
  (answer.1.mapError fun retryAfter =>
      .tooManyRequests "too many attempts; please wait and try again" (max (retryAfter / 10 ^ 9) 1),
    answer.2)

/-- A request that counts against the address it comes from. -/
inductive CountedRequest
  | getSalt (username : String)
  | register
  | login (body : LoginRequest)
  | start
  deriving DecidableEq

/-- The class a route counts its requests in. -/
def CountedRequest.attemptClass : CountedRequest → AttemptClass
  | .getSalt _ => .lookup
  | .register | .login _ | .start => .credential

/-- What a request is answered up to where it waits for the database, and what it
leaves of the throttle. -/
def CountedRequest.answer (request : CountedRequest) (throttle : AuthThrottle) (now : Nat)
    (clientIp : IpAddr) : Except AppError Unit × AuthThrottle :=
  match request with
  | .getSalt username =>
      let answer := Accounts.getSalt externals state throttle now clientIp username
      (answer.1.map fun _ => (), answer.2)
  | .register => countAuthRequest externals state throttle now clientIp .credential
  | .login body => beginLogin externals state throttle now clientIp body
  | .start => countStart externals state throttle now clientIp

end Routes

/-- The key of the lock of a name. -/
def lockKey (externals : Externals) (body : LoginRequest) : String × CredentialKind :=
  (normalize externals.toLowercase body.username, .password)

/-- The call is on neither the bucket nor the name of the request. -/
def CountedRequest.Apart (externals : Externals) (clientIp : IpAddr) (request : CountedRequest)
    (timed : Timed) : Prop :=
  timed.checks (clientIp, request.attemptClass) = false ∧
    ∀ body, request = .login body →
      timed.concerns externals.toLowercase (lockKey externals body) = false

/-- The nanoseconds a name stays locked. -/
def lockLeft (throttle : AuthThrottle) (now : Nat) (key : String × CredentialKind) :
    Nat :=
  (throttle.lockedUntil key).getD now - now

/-- Seconds that lose nothing when they are cut: at most one, or a whole number, or
short of one by less than the clock shows. -/
def Uncut (seconds : ℚ) : Prop :=
  seconds ≤ 1 ∨ ∃ whole : ℕ, (whole : ℚ) - 1 / (2 * 10 ^ 9) ≤ seconds ∧ seconds ≤ whole

/-- The address has no token for a request of the class. -/
def Drained (state : AuthSqlState) (throttle : AuthThrottle) (now : Nat) (clientIp : IpAddr)
    (attemptClass : AttemptClass) : Prop :=
  0 < state.settings.limit attemptClass ∧
    allowance (state.settings.limit attemptClass) (clientIp, attemptClass) throttle now < 1

instance (state : AuthSqlState) (throttle : AuthThrottle) (now : Nat) (clientIp : IpAddr)
    (attemptClass : AttemptClass) :
    Decidable (Drained state throttle now clientIp attemptClass) :=
  inferInstanceAs (Decidable (_ ∧ _))

/-- The wait a request is told loses nothing when it is cut; or it is the wait for a
lock, and the address has no second token before the lock ends. -/
def CountedRequest.ToldInFull
    (externals : Externals) (state : AuthSqlState) (throttle : AuthThrottle)
    (now : Nat) (clientIp : IpAddr) (request : CountedRequest) : Prop :=
  let limit := state.settings.limit request.attemptClass
  let tokens := allowance limit (clientIp, request.attemptClass) throttle now
  if Drained state throttle now clientIp request.attemptClass then
    Uncut (60 * (1 - tokens) / limit)
  else
    match request with
    | .login body =>
        let left := lockLeft throttle now (lockKey externals body)
        left ≤ 10 ^ 9 ∨ 10 ^ 9 ∣ left ∨
          0 < limit ∧ tokens + earningRate limit * ((left - 1 : Nat) : ℚ) < 2
    | _ => True

/-- The request, made again as many seconds later as it was told or more, with no call
on its bucket and its name in between, is not refused with the message again. -/
def CountedRequest.Honoured (externals : Externals) (state : AuthSqlState) (throttle : AuthThrottle)
    (now : Nat) (clientIp : IpAddr) (request : CountedRequest) (message : String)
    (retryAfter : Nat) : Prop :=
  ∀ calls later, now + fromSecs retryAfter ≤ later →
    (∀ timed ∈ calls, timed.now ≤ later ∧ request.Apart externals clientIp timed) →
    ∀ again,
      (request.answer externals state
          ((AuthThrottle.serve externals.arithmetic externals.toLowercase).after
            (request.answer externals state throttle now clientIp).2 calls)
          later clientIp).1 ≠ .error (.tooManyRequests message again)

/-! ### The wait for a token -/

/-- The seconds a client is told to wait. -/
def toldSeconds (wait : Nat) : Nat := max (wait / 10 ^ 9) 1

theorem le_toldSeconds_iff {wait : Nat} :
    wait ≤ fromSecs (toldSeconds wait) ↔ wait ≤ 10 ^ 9 ∨ 10 ^ 9 ∣ wait := by
  unfold fromSecs toldSeconds
  omega

/-- A number of seconds is rounded to at least so many whole ones. -/
theorem le_fromSecsF64_iff (whole : ℕ) (seconds : ℚ) :
    whole * 10 ^ 9 ≤ fromSecsF64 seconds ↔
      whole = 0 ∨ (whole : ℚ) - 1 / (2 * 10 ^ 9) ≤ seconds := by
  have nearest := le_roundHalfEven_iff (whole * 10 ^ 9) (by omega) (seconds * 10 ^ 9)
  have scaled : (((whole * 10 ^ 9 : ℤ) : ℚ) - 1 / 2 ≤ seconds * 10 ^ 9) ↔
      (whole : ℚ) - 1 / (2 * 10 ^ 9) ≤ seconds := by
    push_cast
    constructor <;> intro le <;> linarith
  rw [scaled] at nearest
  rw [← nearest, fromSecsF64]
  omega

/-- Waiting as long as one is told is enough where nothing is cut. -/
theorem le_toldSeconds_fromSecsF64_iff (seconds : ℚ) :
    seconds ≤ toldSeconds (fromSecsF64 seconds) ↔ Uncut seconds := by
  have told : toldSeconds (fromSecsF64 seconds) = max (fromSecsF64 seconds / 10 ^ 9) 1 := rfl
  constructor
  · intro enough
    by_cases short : seconds ≤ 1
    · exact .inl short
    -- More than a second is asked for, so the whole seconds decide.
    have whole : seconds ≤ (fromSecsF64 seconds / 10 ^ 9 : ℕ) := by
      rw [told, Nat.cast_max, Nat.cast_one, le_max_iff] at enough
      exact enough.resolve_right short
    refine .inr ⟨fromSecsF64 seconds / 10 ^ 9, ?_, whole⟩
    have rounded := (le_fromSecsF64_iff (fromSecsF64 seconds / 10 ^ 9) seconds).mp
      (Nat.div_mul_le_self _ _)
    refine rounded.resolve_left fun zero => short ?_
    rw [zero] at whole
    exact whole.trans (by norm_num)
  · rintro (short | ⟨whole, near, le⟩)
    · refine short.trans ?_
      rw [told, Nat.cast_max, Nat.cast_one]
      exact le_max_right _ _
    · have reached := (le_fromSecsF64_iff whole seconds).mpr (.inr near)
      refine le.trans ?_
      rw [told]
      have atLeast : whole ≤ max (fromSecsF64 seconds / 10 ^ 9) 1 := by omega
      exact_mod_cast atLeast

/-! ### What a request is answered -/

section Answers

variable {externals : Externals} {state : AuthSqlState} {throttle throttle' : AuthThrottle}
  {now : Nat} {clientIp : IpAddr}

/-- The message to an address without a token. -/
def addressMessage : String := "too many attempts; please wait and try again"

/-- The message to a locked name. -/
def lockMessage : String := "too many failed sign-in attempts; please wait and try again"

theorem addressMessage_ne_lockMessage : addressMessage ≠ lockMessage := by decide

theorem countAuthRequest_of_drained
    (exact : externals.arithmetic = .exact) {attemptClass : AttemptClass}
    (drained : Drained state throttle now clientIp attemptClass) :
    let limit := state.settings.limit attemptClass
    let tokens := allowance limit (clientIp, attemptClass) throttle now
    ∃ throttle', countAuthRequest externals state throttle now clientIp attemptClass =
        (.error (.tooManyRequests addressMessage
          (toldSeconds (fromSecsF64 (60 * (1 - tokens) / limit)))), throttle') ∧
      throttle'.addresses (clientIp, attemptClass) = some ⟨tokens, now⟩ := by
  intro limit tokens
  obtain ⟨positive, short⟩ := drained
  have checked := checkAddress_exact positive throttle now (clientIp, attemptClass)
  rw [if_pos short] at checked
  unfold countAuthRequest
  rw [exact, checked]
  exact ⟨_, rfl, Function.update_self ..⟩

theorem countAuthRequest_of_not_drained
    (exact : externals.arithmetic = .exact) {attemptClass : AttemptClass}
    (enough : ¬ Drained state throttle now clientIp attemptClass) :
    let limit := state.settings.limit attemptClass
    let tokens := allowance limit (clientIp, attemptClass) throttle now
    ∃ throttle', countAuthRequest externals state throttle now clientIp attemptClass =
        (.ok (), throttle') ∧ throttle'.failures = throttle.failures ∧
      (0 < limit → throttle'.addresses (clientIp, attemptClass) = some ⟨tokens - 1, now⟩) := by
  intro limit tokens
  unfold countAuthRequest
  by_cases positive : 0 < limit
  · have token : ¬ tokens < 1 := fun short => enough ⟨positive, short⟩
    have checked := checkAddress_exact positive throttle now (clientIp, attemptClass)
    rw [if_neg token] at checked
    rw [exact, checked]
    exact ⟨_, rfl, rfl, fun _ => Function.update_self ..⟩
  · rw [checkAddress_of_no_limit (not_lt.mp positive)]
    exact ⟨throttle, rfl, rfl, fun positive' => absurd positive' positive⟩

/-- `start` counts as the other routes do. -/
theorem countStart_eq :
    countStart externals state throttle now clientIp =
      countAuthRequest externals state throttle now clientIp .credential := rfl

/-- A request that is not counted is answered so. -/
theorem answer_of_error (request : CountedRequest) {error : AppError}
    (counted : countAuthRequest externals state throttle now clientIp
      request.attemptClass = (.error error, throttle')) :
    request.answer externals state throttle now clientIp = (.error error, throttle') := by
  cases request with
  | getSalt username =>
      simp only [CountedRequest.answer, getSalt]
      simp only [CountedRequest.attemptClass] at counted
      rw [counted]
      rfl
  | register => exact counted
  | login body =>
      simp only [CountedRequest.answer, beginLogin]
      simp only [CountedRequest.attemptClass] at counted
      rw [counted]
  | start => exact counted

/-- A request that is counted and has a name that is locked. -/
theorem login_of_locked
    {body : LoginRequest} (complete : ¬ (body.username = "" ∨ body.authToken = ""))
    (counted : countAuthRequest externals state throttle now clientIp .credential =
      (.ok (), throttle')) {lockedUntil : Nat}
    (locked : throttle'.lockedUntil (lockKey externals body) = some lockedUntil)
    (lasts : now < lockedUntil) :
    beginLogin externals state throttle now clientIp body =
      (.error (.tooManyRequests lockMessage (toldSeconds (lockedUntil - now))), throttle') := by
  unfold beginLogin
  rw [counted]
  simp only [if_neg complete]
  rw [lockoutRemaining_of_locked locked lasts]
  rfl

/-- A counted request is answered 429 only where it signs in to a locked name. -/
theorem locked_of_tooManyRequests {request : CountedRequest}
    (counted : countAuthRequest externals state throttle now clientIp
      request.attemptClass = (.ok (), throttle'))
    {message : String} {retryAfter : Nat}
    (refused : (request.answer externals state throttle now clientIp).1 =
      .error (.tooManyRequests message retryAfter)) :
    message = lockMessage ∧ ∃ body lockedUntil, request = .login body ∧
      ¬ (body.username = "" ∨ body.authToken = "") ∧
      throttle'.lockedUntil (lockKey externals body) = some lockedUntil ∧
      now < lockedUntil := by
  cases request with
  | getSalt username =>
      simp only [CountedRequest.attemptClass] at counted
      simp only [CountedRequest.answer, getSalt, counted] at refused
      split_ifs at refused <;> cases refused
  | register =>
      simp only [CountedRequest.attemptClass] at counted
      simp only [CountedRequest.answer, counted] at refused
      cases refused
  | login body =>
      simp only [CountedRequest.attemptClass] at counted
      simp only [CountedRequest.answer, beginLogin, counted] at refused
      by_cases complete : body.username = "" ∨ body.authToken = ""
      · rw [if_pos complete] at refused
        cases refused
      rw [if_neg complete] at refused
      cases locked : throttle'.lockedUntil (lockKey externals body) with
      | none =>
          rw [lockoutRemaining_of_unlocked locked] at refused
          cases refused
      | some lockedUntil =>
          by_cases expired : lockedUntil ≤ now
          · rw [lockoutRemaining_of_expired locked expired] at refused
            cases refused
          · rw [lockoutRemaining_of_locked locked (not_le.mp expired)] at refused
            simp only [Except.error.injEq, AppError.tooManyRequests.injEq] at refused
            exact ⟨refused.1.symm, body, lockedUntil, rfl, complete, locked, not_le.mp expired⟩
  | start =>
      simp only [CountedRequest.attemptClass] at counted
      simp only [CountedRequest.answer, countStart_eq, counted] at refused
      cases refused

/-! ### Coming back -/

/-- An address that was without a token has one once it waited for what it lacks. -/
theorem not_drained_later_iff {attemptClass : AttemptClass}
    (drained : Drained state throttle now clientIp attemptClass) {tokens : ℚ}
    (left : throttle'.addresses (clientIp, attemptClass) = some ⟨tokens, now⟩) (elapsed : Nat) :
    ¬ Drained state throttle' (now + elapsed) clientIp attemptClass ↔
      60 * (1 - tokens) / state.settings.limit attemptClass ≤ (elapsed : ℚ) / 10 ^ 9 := by
  obtain ⟨positive, _⟩ := drained
  have oneLe : (1 : ℚ) ≤ state.settings.limit attemptClass := by exact_mod_cast positive
  have earned : ¬ Drained state throttle' (now + elapsed) clientIp attemptClass ↔
      1 ≤ tokens + earningRate (state.settings.limit attemptClass) * (elapsed : ℚ) := by
    unfold Drained
    rw [allowance_of_some left, refill, Nat.add_sub_cancel_left, not_and]
    simp only [positive, forall_const, not_lt, le_min_iff, oneLe, and_true]
  rw [earned, div_le_div_iff₀ (by linarith) (by norm_num), earningRate]
  constructor <;> intro enough
  · field_simp at enough
    linarith
  · field_simp
    linarith

/-- A client that lacked a token is let through where its wait was told in full. -/
theorem honoured_iff_of_drained (exact : externals.arithmetic = .exact) {request : CountedRequest}
    (drained : Drained state throttle now clientIp request.attemptClass)
    {message : String} {retryAfter : Nat}
    (refused : (request.answer externals state throttle now clientIp).1 =
      .error (.tooManyRequests message retryAfter)) :
    request.Honoured externals state throttle now clientIp message retryAfter ↔
      request.ToldInFull externals state throttle now clientIp := by
  obtain ⟨waiting, counted, bucket⟩ := countAuthRequest_of_drained exact drained
  have answer := answer_of_error request counted
  rw [answer] at refused
  simp only [Except.error.injEq, AppError.tooManyRequests.injEq] at refused
  obtain ⟨rfl, rfl⟩ := refused
  simp only [CountedRequest.ToldInFull, if_pos drained]
  rw [← le_toldSeconds_fromSecsF64_iff]
  constructor
  · intro honoured
    generalize toldSeconds _ = told at answer honoured ⊢
    -- Nothing in between, and not a nanosecond later than told.
    have again := honoured [] (now + fromSecs told) le_rfl (fun _ none => by cases none)
    rw [answer] at again
    have enough : ¬ Drained state waiting (now + fromSecs told) clientIp
        request.attemptClass := by
      intro still
      obtain ⟨_, countedAgain, _⟩ := countAuthRequest_of_drained exact still
      exact again _ (congrArg Prod.fst (answer_of_error request countedAgain))
    have wait := (not_drained_later_iff drained bucket (fromSecs told)).mp enough
    rwa [fromSecs, Nat.cast_mul, Nat.cast_pow, Nat.cast_ofNat,
      mul_div_cancel_right₀ _ (by norm_num)] at wait
  · intro told calls later late apart again refusedAgain
    rw [answer, exact] at refusedAgain
    obtain ⟨elapsed, rfl⟩ := Nat.exists_eq_add_of_le (le_of_add_le_left late)
    have enough : ¬ Drained state waiting (now + elapsed) clientIp
        request.attemptClass := by
      refine (not_drained_later_iff drained bucket elapsed).mpr (told.trans ?_)
      rw [le_div_iff₀ (by norm_num)]
      exact_mod_cast Nat.add_le_add_iff_left.mp late
    have more := le_allowance_after_others externals.toLowercase waiting
      (state.settings.limit request.attemptClass) (fun timed present => (apart timed present).2.1)
      (fun timed present => (apart timed present).1)
    have enoughThen : ¬ Drained state
        ((AuthThrottle.serve .exact externals.toLowercase).after waiting calls)
        (now + elapsed) clientIp request.attemptClass :=
      fun still => enough ⟨still.1, more.trans_lt still.2⟩
    obtain ⟨_, countedAgain, _⟩ := countAuthRequest_of_not_drained exact enoughThen
    exact addressMessage_ne_lockMessage (locked_of_tooManyRequests countedAgain refusedAgain).1

/-- An address that had less than a second token is without one for as long as it does
not earn it. -/
theorem drained_after_others (toLowercase : String → String) {attemptClass : AttemptClass}
    (positive : 0 < state.settings.limit attemptClass) {tokens : ℚ}
    (left : throttle'.addresses (clientIp, attemptClass) = some ⟨tokens - 1, now⟩)
    (token : 1 ≤ tokens) {later span : Nat} (within : later - now ≤ span)
    (short : tokens + earningRate (state.settings.limit attemptClass) * (span : ℚ) < 2)
    {calls : List Timed} (others : ∀ timed ∈ calls, timed.checks (clientIp, attemptClass) = false)
    (before : ∀ timed ∈ calls, timed.now ≤ later) :
    Drained state ((AuthThrottle.serve .exact toLowercase).after throttle' calls) later
      clientIp attemptClass := by
  refine ⟨positive, ?_⟩
  have nonneg : ∀ bucket, throttle'.addresses (clientIp, attemptClass) = some bucket →
      0 ≤ bucket.tokens := by
    rintro _ found
    cases left.symm.trans found
    exact sub_nonneg.mpr token
  have earns := earningRate_nonneg positive
  have elapsed : ((later - now : Nat) : ℚ) ≤ span := by exact_mod_cast within
  rw [allowance_after_others toLowercase positive nonneg others before, allowance_of_some left]
  calc refill (state.settings.limit attemptClass : ℚ)
        (earningRate (state.settings.limit attemptClass)) (tokens - 1) now later
      ≤ tokens - 1 +
          earningRate (state.settings.limit attemptClass) * ((later - now : Nat) : ℚ) :=
        refill_le ..
    _ ≤ tokens - 1 + earningRate (state.settings.limit attemptClass) * (span : ℚ) := by
        gcongr
    _ < 1 := by linarith

/-- A client whose name was locked is let through where its wait was told in full, or
where it has no token before the lock ends. -/
theorem honoured_iff_of_not_drained
    (exact : externals.arithmetic = .exact) {request : CountedRequest}
    (enough : ¬ Drained state throttle now clientIp request.attemptClass)
    {message : String} {retryAfter : Nat}
    (refused : (request.answer externals state throttle now clientIp).1 =
      .error (.tooManyRequests message retryAfter)) :
    request.Honoured externals state throttle now clientIp message retryAfter ↔
      request.ToldInFull externals state throttle now clientIp := by
  obtain ⟨counting, counted, records, bucket⟩ := countAuthRequest_of_not_drained exact enough
  obtain ⟨rfl, body, lockedUntil, rfl, complete, locked, lasts⟩ :=
    locked_of_tooManyRequests counted refused
  simp only [CountedRequest.attemptClass] at enough counted bucket
  have answer : CountedRequest.answer externals state (.login body) throttle now clientIp =
      (.error (.tooManyRequests lockMessage (toldSeconds (lockedUntil - now))), counting) :=
    login_of_locked complete counted locked lasts
  rw [answer] at refused
  simp only [Except.error.injEq, AppError.tooManyRequests.injEq, true_and] at refused
  subst refused
  have left : lockLeft throttle now (lockKey externals body) = lockedUntil - now := by
    rw [lockLeft, AuthThrottle.lockedUntil, ← records]
    rw [AuthThrottle.lockedUntil] at locked
    rw [locked, Option.getD_some]
  simp only [CountedRequest.ToldInFull, CountedRequest.attemptClass, if_neg enough, left]
  rw [← or_assoc, ← le_toldSeconds_iff]
  constructor
  · intro honoured
    by_contra none
    obtain ⟨cut, token⟩ := not_or.mp none
    -- Nothing in between, and the last nanosecond of the lock.
    have enoughThen : ¬ Drained state counting (lockedUntil - 1) clientIp .credential := by
      rintro ⟨positive, short⟩
      have oneLe : (1 : ℚ) ≤ state.settings.limit .credential := by exact_mod_cast positive
      rw [allowance_of_some (bucket positive), refill, min_lt_iff,
        or_iff_left (not_lt.mpr oneLe), Nat.sub_right_comm] at short
      exact token ⟨positive, by linarith⟩
    obtain ⟨_, countedAgain, recordsAgain, _⟩ := countAuthRequest_of_not_drained exact enoughThen
    rw [AuthThrottle.lockedUntil, ← recordsAgain] at locked
    have again := honoured [] (lockedUntil - 1) (by omega) (fun _ none => by cases none)
    rw [answer] at again
    have refusedAgain := login_of_locked complete countedAgain locked (by omega)
    exact again _ (congrArg Prod.fst refusedAgain)
  · intro told calls later late apart again refusedAgain
    rw [answer, exact] at refusedAgain
    by_cases drained : Drained state
      ((AuthThrottle.serve .exact externals.toLowercase).after counting calls) later clientIp
      .credential
    · obtain ⟨_, countedAgain, _⟩ := countAuthRequest_of_drained exact drained
      have differs := answer_of_error (.login body) countedAgain
      rw [differs] at refusedAgain
      simp only [Except.error.injEq, AppError.tooManyRequests.injEq] at refusedAgain
      exact addressMessage_ne_lockMessage refusedAgain.1
    obtain ⟨_, countedAgain, recordsAgain, _⟩ := countAuthRequest_of_not_drained exact drained
    obtain ⟨_, _, lockedUntil', same, _, lockedAgain, lastsAgain⟩ :=
      locked_of_tooManyRequests countedAgain refusedAgain
    cases same
    rw [AuthThrottle.lockedUntil, recordsAgain] at lockedAgain
    have still : lockedUntil' = lockedUntil := by
      rcases lockedUntil_after_others counting .exact
        (fun timed present => (apart timed present).2.2 body rfl) with kept | dropped
      · rw [AuthThrottle.lockedUntil, lockedAgain, locked] at kept
        exact Option.some.inj kept
      · rw [AuthThrottle.lockedUntil, lockedAgain] at dropped
        cases dropped
    subst still
    rcases told with uncut | ⟨positive, token⟩
    · omega
    exact drained (drained_after_others externals.toLowercase positive (bucket positive)
      (not_lt.mp fun short => enough ⟨positive, short⟩) (by omega) token
      (fun timed present => (apart timed present).2.1)
      (fun timed present => (apart timed present).1))

end Answers

/-- A client that comes back as late as it was told, with no other request on its
address and name in between, is let through exactly where the wait was told in full:
it is at most a second, or a whole number of seconds to the half nanosecond; or it is
the wait for a lock and the address lacks a token until the lock ends. -/
theorem retryAfter_honoured_iff {externals : Externals} (exact : externals.arithmetic = .exact)
    (state : AuthSqlState) (request : CountedRequest) (throttle : AuthThrottle)
    (now : Nat) (clientIp : IpAddr) {message : String} {retryAfter : Nat}
    (refused : (request.answer externals state throttle now clientIp).1 =
      .error (.tooManyRequests message retryAfter)) :
    request.Honoured externals state throttle now clientIp message retryAfter ↔
      request.ToldInFull externals state throttle now clientIp := by
  by_cases drained : Drained state throttle now clientIp request.attemptClass
  · exact honoured_iff_of_drained exact drained refused
  · exact honoured_iff_of_not_drained exact drained refused

section Sample

/-- The throttle once an address made so many requests at once. -/
def burst (limit : Int) (requests : Nat) : AuthThrottle :=
  (AuthThrottle.serve .exact toAsciiLowercase).after .new
    (List.replicate requests (sampleCheck limit 0))

/-- A state without accounts that allows so many sign-ins a minute. -/
def limitedTo (limit : Int) : AuthSqlState :=
  { noAccounts with
    settings := { noAccounts.settings with authRateLimitPerMinute := limit } }

/-- With 30 a minute the wait is two seconds, and is told so. -/
theorem retryAfter_honoured_iff_thirty :
    CountedRequest.register.Honoured sampleExternals (limitedTo 30) (burst 30 30) 0
      sampleKey.1 "too many attempts; please wait and try again" 2 :=
  (retryAfter_honoured_iff rfl (limitedTo 30) .register (burst 30 30) 0 sampleKey.1
    (by decide +kernel)).mpr (by
      have drained : Drained (limitedTo 30) (burst 30 30) 0 sampleKey.1
          CountedRequest.register.attemptClass := by
        decide +kernel
      unfold CountedRequest.ToldInFull
      rw [if_pos drained]
      exact .inr ⟨2, by decide +kernel, by decide +kernel⟩)

/-- With 25 a minute the wait is 2.4 seconds, and is told as two. -/
theorem early_return_refused :
    ¬ ∀ (externals : Externals) (state : AuthSqlState) (request : CountedRequest)
      (throttle : AuthThrottle) (now : Nat) (clientIp : IpAddr) (message : String)
      (retryAfter : Nat), externals.arithmetic = .exact →
      (request.answer externals state throttle now clientIp).1 =
        .error (.tooManyRequests message retryAfter) →
      request.Honoured externals state throttle now clientIp message retryAfter := by
  intro claimed
  have honoured := claimed sampleExternals (limitedTo 25) .register (burst 25 25) 0
    sampleKey.1 "too many attempts; please wait and try again" 2 rfl (by decide +kernel)
  refine honoured [] (fromSecs 2) le_rfl (fun _ none => by cases none) 1 ?_
  decide +kernel

end Sample

end Accounts
end MindMapVault
