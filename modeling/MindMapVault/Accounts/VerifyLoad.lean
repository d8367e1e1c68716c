import MindMapVault.Accounts.Invites
import MindMapVault.Accounts.Login
import MindMapVault.Accounts.RotateCredentials
import MindMapVault.Throttle.VerifyBudget

/-!
# Argon2 on one instance

The requests that hash or verify a token, cut at the points where they wait, with the
database answering as it likes. A sign-in verifies on a blocking thread under a permit
of the budget, which that thread gives back even if the request is gone. A
registration and a rotation compute where they are and ask for no permit. So the
permits add up in every state, the limit is never exceeded by more than the computations
of registrations and rotations, and it is kept in every run in which none of these starts.
-/

namespace MindMapVault
namespace Accounts

open Transition Threads Throttle

/-- An instance: its budget and its clock. -/
structure Instance where
  budget : VerifyBudget
  clock : Nat
  deriving DecidableEq

/-- A request that has passed the checks of its body. -/
inductive CredentialRequest
  | register (body : RegisterRequest)
  | login (body : LoginRequest)
  | rotateCredentials (body : RotateCredentialsRequest)
  deriving DecidableEq

/-- A request under way. A verification under a permit knows whether its request still
waits for it. -/
inductive CredentialFlight
  | registering (body : RegisterRequest)
  | registerHashing (body : RegisterRequest)
  | registerHashed (body : RegisterRequest) (authHash : String)
  | signingIn (body : LoginRequest)
  | queued (body : LoginRequest) (storedHash : String) (deadline : Nat)
  | verifying (body : LoginRequest) (storedHash : String) (heard : Bool)
  | rotating (body : RotateCredentialsRequest)
  | rotateVerifying (body : RotateCredentialsRequest) (storedHash : String)
  | rotateHashing (body : RotateCredentialsRequest)
  | rotateHashed (body : RotateCredentialsRequest) (newAuthHash : String)
  | answered (reply : Except AppError Unit)
  | gone
  deriving DecidableEq

/-- What a request is waiting for, as it happens. -/
inductive CredentialAct
  | loaded (user : Option StoredUser)
  | written
  | failed (error : AppError)
  | acquire
  | timeOut
  | finish
  | panicked (detail : String)
  | cancel
  deriving DecidableEq

/-- The first lookup of a request. -/
def CredentialRequest.begin : CredentialRequest → CredentialFlight
  | .register body => .registering body
  | .login body => .signingIn body
  | .rotateCredentials body => .rotating body

/-- The answer of a verification to the request, if that is still there. -/
def answerIfHeard (heard : Bool) (reply : Except AppError Unit) : CredentialFlight :=
  if heard then .answered reply else .gone

/-- `login` once the account is loaded, up to where it computes or waits for a
permit. -/
def beginVerify (inst : Instance) (body : LoginRequest) :
    Option StoredUser → Instance × CredentialFlight
  | none => (inst, .answered (.error (.unauthorized "invalid credentials")))
  | some user =>
      if user.isLocked then
        (inst, .answered (.error (.unauthorized "account is locked")))
      else if user.authHash = "" then
        (inst, .answered (.error (.unauthorized "invalid credentials")))
      else
        match inst.budget.tryAcquire with
        | some budget => ({ inst with budget }, .verifying body user.authHash true)
        | none => (inst, .queued body user.authHash (inst.clock + queueFor))

section Advance

variable (argon2 : Argon2)

/-- What a registration is left with when it has hashed its token. -/
def concludeHash (body : RegisterRequest) : CredentialFlight :=
  match argon2.hashAuthToken body.authToken with
  | .ok authHash => .registerHashed body authHash
  | .error error => .answered (.error error)

/-- `rotate_credentials` once the current token is verified: it goes on to hash the
new one without a wait. -/
def concludeCurrent (body : RotateCredentialsRequest) (storedHash : String) :
    CredentialFlight :=
  match argon2.verifyAuthToken body.currentAuthToken storedHash with
  | .error error => .answered (.error error)
  | .ok () =>
      match checkRotatedAttachments body.update.updatedAttachments with
      | .error error => .answered (.error error)
      | .ok () => .rotateHashing body

/-- What a rotation is left with when it has hashed the new token. -/
def concludeNew (body : RotateCredentialsRequest) : CredentialFlight :=
  match argon2.hashAuthToken body.update.newAuthToken with
  | .ok newAuthHash => .rotateHashed body newAuthHash
  | .error error => .answered (.error error)

/-- The answer of a sign-in to a token that was verified. -/
def verified (body : LoginRequest) (storedHash : String) : Except AppError Unit :=
  (argon2.verifyAuthToken body.authToken storedHash).mapError fun _ =>
    .unauthorized "invalid credentials"

/-- What comes next for a request. Which waiting sign-in gets a permit that is free
is left open, and a computation on the handler's own thread cannot be cancelled. -/
def advanceCredential (inst : Instance) :
    CredentialFlight → CredentialAct → Option (Instance × CredentialFlight)
  | .registering _, .loaded (some _) =>
      some (inst, .answered (.error (.conflict "username already taken")))
  | .registering body, .loaded none => some (inst, .registerHashing body)
  | .registerHashing body, .finish => some (inst, concludeHash argon2 body)
  | .registerHashed _ _, .written => some (inst, .answered (.ok ()))
  | .signingIn body, .loaded user => some (beginVerify inst body user)
  | .queued body storedHash _, .acquire =>
      inst.budget.tryAcquire.map fun budget =>
        ({ inst with budget }, .verifying body storedHash true)
  | .queued _ _ deadline, .timeOut =>
      if deadline ≤ inst.clock then
        some (inst, .answered (.error VerifyBudget.busy))
      else
        none
  | .verifying body storedHash heard, .finish =>
      some ({ inst with budget := inst.budget.release },
        answerIfHeard heard (verified argon2 body storedHash))
  | .verifying _ _ heard, .panicked detail =>
      some ({ inst with budget := inst.budget.release },
        answerIfHeard heard (.error (VerifyBudget.taskFailed detail)))
  | .verifying body storedHash true, .cancel =>
      some (inst, .verifying body storedHash false)
  | .rotating _, .loaded none =>
      some (inst, .answered (.error (.notFound "user not found")))
  | .rotating body, .loaded (some user) =>
      match argon2.parseHash user.authHash with
      | .error error => some (inst, .answered (.error error))
      | .ok () => some (inst, .rotateVerifying body user.authHash)
  | .rotateVerifying body storedHash, .finish =>
      some (inst, concludeCurrent argon2 body storedHash)
  | .rotateHashing body, .finish => some (inst, concludeNew argon2 body)
  | .rotateHashed _ _, .written => some (inst, .answered (.ok ()))
  | .registering _, .failed error | .registerHashed _ _, .failed error
  | .signingIn _, .failed error | .rotating _, .failed error
  | .rotateHashed _ _, .failed error => some (inst, .answered (.error error))
  | .registering _, .cancel | .registerHashed _ _, .cancel | .signingIn _, .cancel
  | .queued _ _ _, .cancel | .rotating _, .cancel | .rotateHashed _ _, .cancel =>
      some (inst, .gone)
  | _, _ => none

/-- Any number of requests on one instance. Beside them, time passes. -/
def credentialRequests :
    Program Instance CredentialFlight Nat CredentialRequest CredentialAct where
  outside := fun inst now =>
    if inst.clock ≤ now then some { inst with clock := now } else none
  spawn := fun inst request => some (inst, request.begin)
  advance := advanceCredential argon2

end Advance

/-- The instance and its requests. -/
abbrev CredentialPool := Pool Instance CredentialFlight

/-- A move of the requests. -/
abbrev CredentialMove := Move Nat CredentialRequest CredentialAct

namespace CredentialFlight

/-- The request holds a permit. -/
def permitted : CredentialFlight → Nat
  | .verifying _ _ _ => 1
  | _ => 0

/-- The request computes without a permit. -/
def unpermitted : CredentialFlight → Nat
  | .registerHashing _ | .rotateVerifying _ _ | .rotateHashing _ => 1
  | _ => 0

/-- An Argon2 computation runs for the request: not for a sign-in whose stored hash does
not parse, which fails before it. -/
def computing (argon2 : Argon2) : CredentialFlight → Nat
  | .verifying _ storedHash _ => if (argon2.parseHash storedHash).isOk then 1 else 0
  | .registerHashing _ | .rotateVerifying _ _ | .rotateHashing _ => 1
  | _ => 0

/-- The next step starts a computation that asks for no permit: that of a registration
under a free name, or of a rotation on an account whose stored hash parses. -/
def startsUnpermitted (argon2 : Argon2) : CredentialFlight → CredentialAct → Bool
  | .registering _, .loaded none => true
  | .rotating _, .loaded (some user) => (argon2.parseHash user.authHash).isOk
  | _, _ => false

end CredentialFlight

/-- How many Argon2 computations run at this instant. -/
def running (argon2 : Argon2) (pool : CredentialPool) : Nat :=
  weight (CredentialFlight.computing argon2) pool.threads

/-- How many of them were started without a permit. -/
def runningUnpermitted (pool : CredentialPool) : Nat :=
  weight CredentialFlight.unpermitted pool.threads

/-- Every permit is in the pool or with a sign-in that verifies. -/
def PermitsReturned (limit : Nat) (pool : CredentialPool) : Prop :=
  pool.shared.budget.permits + weight CredentialFlight.permitted pool.threads = limit

/-- The permits add up, and every computation runs under one. -/
structure AllPermitted (limit : Nat) (pool : CredentialPool) : Prop where
  returned : PermitsReturned limit pool
  none : runningUnpermitted pool = 0

/-- A move starts no computation that asks for no permit. -/
def AsksPermit (argon2 : Argon2) (pool : CredentialPool) : CredentialMove → Prop
  | .advance thread act =>
      ∀ flight ∈ pool.threads[thread]?, flight.startsUnpermitted argon2 act = false
  | _ => True

instance (argon2 : Argon2) (pool : CredentialPool) (move : CredentialMove) :
    Decidable (AsksPermit argon2 pool move) := by
  unfold AsksPermit
  split
  · exact Option.decidableForallMem _
  · infer_instance

/-- An instance that has just started. -/
def idle (budget : VerifyBudget) (clock : Nat) : CredentialPool where
  shared := { budget := budget, clock := clock }
  threads := []

section Steps

variable {argon2 : Argon2} {inst after : Instance}
variable {before flight : CredentialFlight} {act : CredentialAct}

/-- What runs for a request runs under a permit or without one. -/
theorem computing_le (argon2 : Argon2) (flight : CredentialFlight) :
    flight.computing argon2 ≤ flight.permitted + flight.unpermitted := by
  cases flight with
  | verifying body storedHash heard =>
      simp only [CredentialFlight.computing, CredentialFlight.permitted]
      split_ifs <;> omega
  | registering _ | registerHashing _ | registerHashed _ _ | signingIn _ | queued _ _ _
  | rotating _ | rotateVerifying _ _ | rotateHashing _ | rotateHashed _ _ | answered _
  | gone => exact Nat.le_refl _

/-- What a step does to the permits and to the computation of its request. -/
inductive Effect (argon2 : Argon2) (budget : VerifyBudget) (before : CredentialFlight)
    (act : CredentialAct) : VerifyBudget → CredentialFlight → Prop
  /-- It starts to compute without a permit. -/
  | started {flight : CredentialFlight}
      (starts : before.startsUnpermitted argon2 act = true)
      (permitted : flight.permitted = before.permitted) :
      Effect argon2 budget before act budget flight
  /-- It starts no computation, and the permits stay. -/
  | stayed {flight : CredentialFlight}
      (permitted : flight.permitted = before.permitted)
      (unpermitted : flight.unpermitted ≤ before.unpermitted) :
      Effect argon2 budget before act budget flight
  /-- It takes a permit. -/
  | acquired {after : VerifyBudget} {flight : CredentialFlight}
      (taken : budget.tryAcquire = some after)
      (permitted : flight.permitted = before.permitted + 1)
      (unpermitted : flight.unpermitted = 0) :
      Effect argon2 budget before act after flight
  /-- Its verification ends and the permit goes back. -/
  | released {flight : CredentialFlight}
      (permitted : before.permitted = 1)
      (ended : flight.permitted = 0 ∧ flight.unpermitted = 0) :
      Effect argon2 budget before act budget.release flight

/-- The answer of a verification computes nothing. -/
theorem computing_answerIfHeard (heard : Bool) (reply : Except AppError Unit) :
    (answerIfHeard heard reply).permitted = 0 ∧ (answerIfHeard heard reply).unpermitted = 0 := by
  unfold answerIfHeard
  cases heard <;> exact ⟨rfl, rfl⟩

section Concluded

variable (argon2)

theorem computing_concludeHash (body : RegisterRequest) :
    (concludeHash argon2 body).permitted = 0 ∧ (concludeHash argon2 body).unpermitted = 0 := by
  unfold concludeHash
  split <;> exact ⟨rfl, rfl⟩

theorem computing_concludeNew (body : RotateCredentialsRequest) :
    (concludeNew argon2 body).permitted = 0 ∧ (concludeNew argon2 body).unpermitted = 0 := by
  unfold concludeNew
  split <;> exact ⟨rfl, rfl⟩

/-- A rotation whose current token was verified goes on with one computation at
most. -/
theorem computing_concludeCurrent (body : RotateCredentialsRequest) (storedHash : String) :
    (concludeCurrent argon2 body storedHash).permitted = 0 ∧
      (concludeCurrent argon2 body storedHash).unpermitted ≤ 1 := by
  unfold concludeCurrent
  split
  · exact ⟨rfl, Nat.zero_le 1⟩
  · split
    · exact ⟨rfl, Nat.zero_le 1⟩
    · exact ⟨rfl, Nat.le_refl 1⟩

end Concluded

variable (argon2 inst) in
/-- A sign-in whose account is loaded is answered, waits, or takes a permit. -/
theorem beginVerify_effect (body : LoginRequest) (user : Option StoredUser) :
    Effect argon2 inst.budget (.signingIn body) (.loaded user)
      (beginVerify inst body user).1.budget (beginVerify inst body user).2 := by
  unfold beginVerify
  cases user with
  | none => exact .stayed rfl (Nat.le_refl 0)
  | some user =>
      simp only
      split_ifs
      · exact .stayed rfl (Nat.le_refl 0)
      · exact .stayed rfl (Nat.le_refl 0)
      · cases acquired : inst.budget.tryAcquire with
        | none => exact .stayed rfl (Nat.le_refl 0)
        | some budget => exact .acquired acquired rfl rfl

/-- Every step has one of the effects. -/
theorem advanceCredential_effect
    (taken : advanceCredential argon2 inst before act = some (after, flight)) :
    Effect argon2 inst.budget before act after.budget flight := by
  unfold advanceCredential at taken
  split at taken
  case h_2 =>
    cases taken
    exact .started rfl rfl
  case h_3 body =>
    cases taken
    have ended := computing_concludeHash argon2 body
    exact .stayed ended.1 (ended.2.trans_le (Nat.zero_le _))
  case h_5 body user =>
    have effect := beginVerify_effect argon2 inst body user
    rw [Option.some.inj taken] at effect
    exact effect
  case h_6 =>
    obtain ⟨budget, acquired, same⟩ := Option.map_eq_some_iff.mp taken
    cases same
    exact .acquired acquired rfl rfl
  case h_7 =>
    split_ifs at taken
    cases taken
    exact .stayed rfl (Nat.le_refl 0)
  case h_8 heard =>
    cases taken
    exact .released rfl (computing_answerIfHeard heard _)
  case h_9 heard detail =>
    cases taken
    exact .released rfl (computing_answerIfHeard heard _)
  case h_12 body user =>
    cases parsed : argon2.parseHash user.authHash with
    | error error =>
        simp only [parsed] at taken
        cases taken
        exact .stayed rfl (Nat.le_refl 0)
    | ok passed =>
        simp only [parsed] at taken
        cases taken
        exact .started (by simp [CredentialFlight.startsUnpermitted, parsed, Except.isOk,
          Except.toBool]) rfl
  case h_13 body storedHash =>
    cases taken
    have goes := computing_concludeCurrent argon2 body storedHash
    exact .stayed goes.1 goes.2
  case h_14 body =>
    cases taken
    have ended := computing_concludeNew argon2 body
    exact .stayed ended.1 (ended.2.trans_le (Nat.zero_le _))
  all_goals cases taken <;> exact .stayed rfl (Nat.le_refl _)

end Steps

section Runs

variable {argon2 : Argon2} {limit : Nat} {pool next : CredentialPool}
variable {move : CredentialMove}

/-- A request begins without computing. -/
theorem computing_begin (request : CredentialRequest) :
    request.begin.permitted = 0 ∧ request.begin.unpermitted = 0 := by
  cases request <;> exact ⟨rfl, rfl⟩

/-- Permits go from the pool to a verification and back. -/
theorem permits_balance (taken : (credentialRequests argon2).system pool move = some next) :
    next.shared.budget.permits + weight CredentialFlight.permitted next.threads =
      pool.shared.budget.permits + weight CredentialFlight.permitted pool.threads := by
  refine balance_preserved (fun inst : Instance => inst.budget.permits)
    CredentialFlight.permitted (fun inst now after passed => ?_)
    (fun inst request after flight begun => ?_)
    (fun inst before act after flight advanced => ?_) taken
  · simp only [credentialRequests] at passed
    split_ifs at passed
    cases passed
    rfl
  · cases begun
    rw [(computing_begin request).1]
    rfl
  · have effect := advanceCredential_effect advanced
    generalize after.budget = budget at effect ⊢
    cases effect with
    | started _ permitted => rw [permitted]
    | stayed permitted _ => rw [permitted]
    | acquired acquired permitted _ =>
        have taken := (VerifyBudget.of_tryAcquire acquired).1
        omega
    | released permitted ended =>
        rw [permitted, ended.1, VerifyBudget.release_permits]

/-- No more runs than there are permits out and computations without one. -/
theorem running_le (returned : PermitsReturned limit pool) :
    running argon2 pool ≤ limit + runningUnpermitted pool := by
  have parts : running argon2 pool ≤ weight CredentialFlight.permitted pool.threads +
      runningUnpermitted pool :=
    (weight_le fun own _ => computing_le argon2 own).trans (weight_add pool.threads).le
  unfold PermitsReturned at returned
  omega

theorem AllPermitted.running_le (all : AllPermitted limit pool) :
    running argon2 pool ≤ limit := by
  have bound : running argon2 pool ≤ limit + runningUnpermitted pool :=
    Accounts.running_le all.returned
  rw [all.none] at bound
  exact bound

/-- As long as every computation asks for a permit, none runs without one. -/
theorem runningUnpermitted_step (none : runningUnpermitted pool = 0)
    (asks : AsksPermit argon2 pool move)
    (taken : (credentialRequests argon2).system pool move = some next) :
    runningUnpermitted next = 0 := by
  revert asks
  refine Program.system_cases (motive := fun move next =>
    AsksPermit argon2 pool move → runningUnpermitted next = 0) ?_ ?_ ?_ taken
  · exact fun _ _ _ _ => none
  · intro request inst flight begun _
    cases begun
    simp only [runningUnpermitted, weight_append_singleton, (computing_begin request).2]
    exact none
  · intro thread act before inst after present advanced asks
    have moved : weight CredentialFlight.unpermitted (pool.threads.set thread after) +
        before.unpermitted = runningUnpermitted pool + after.unpermitted :=
      weight_set present after
    have effect := advanceCredential_effect advanced
    simp only [runningUnpermitted] at none moved ⊢
    generalize inst.budget = budget at effect
    cases effect with
    | started starts _ =>
        rw [asks before present] at starts
        cases starts
    | stayed _ unpermitted => omega
    | acquired _ _ unpermitted => omega
    | released _ ended => omega

theorem allPermitted_step (all : AllPermitted limit pool) (asks : AsksPermit argon2 pool move)
    (taken : (credentialRequests argon2).system pool move = some next) :
    AllPermitted limit next :=
  ⟨(permits_balance taken).trans all.returned, runningUnpermitted_step all.none asks taken⟩

end Runs

/-- In every run of registrations, sign-ins and rotations the permits add up and no more
computations run than the limit and those that asked for no permit; the limit is kept
in every run in which each computation asks for a permit. -/
theorem running_le_limit (argon2 : Argon2) (concurrency : Nat) (availableParallelism : Option Nat)
    (clock : Nat) (run : List CredentialMove) :
    let budget := VerifyBudget.new concurrency availableParallelism
    EveryState (credentialRequests argon2).system (fun pool =>
        PermitsReturned budget.limit pool ∧
          running argon2 pool ≤ budget.limit + runningUnpermitted pool)
        (idle budget clock) run ∧
      (EveryStepAllowed (credentialRequests argon2).system (AsksPermit argon2)
          (idle budget clock) run →
        EveryState (credentialRequests argon2).system
          (fun pool => running argon2 pool ≤ budget.limit) (idle budget clock) run) := by
  intro budget
  have returned : PermitsReturned budget.limit (idle budget clock) := rfl
  constructor
  · have always : EveryState (credentialRequests argon2).system
        (PermitsReturned budget.limit) (idle budget clock) run := by
      apply everyState_of_invariant _ returned run
      intro pool move next returned taken
      exact (permits_balance taken).trans returned
    exact always.mono fun _ returned => ⟨returned, running_le returned⟩
  · exact everyState_of_allowed (fun _ _ _ => allPermitted_step)
      (fun _ all => all.running_le) ⟨returned, rfl⟩

/-- Who signs in as alice. -/
def alice : StoredUser :=
  registeredUser "id" "alice" "token"
    ⟨"alice", "token", "salt", ⟨65536, 3, 4⟩, "", "", "", "", none⟩ 0

/-- Two sign-ins share one permit. -/
theorem running_le_limit_signIns :
    EveryState (credentialRequests plainArgon2).system
      (fun pool => running plainArgon2 pool ≤ 1) (idle (VerifyBudget.new 1 none) 0)
      [.spawn (.login ⟨"alice", "token"⟩), .advance 0 (.loaded (some alice)),
        .spawn (.login ⟨"alice", "guess"⟩), .advance 1 (.loaded (some alice)),
        .advance 0 .finish, .advance 1 .acquire, .advance 1 .finish] :=
  (running_le_limit plainArgon2 1 none 0 _).2 (by decide)

/-- A registration hashes its token beside the one verification the budget allows. -/
theorem registration_exceeds_budget :
    ¬ EveryState (credentialRequests plainArgon2).system
      (fun pool => running plainArgon2 pool ≤ 1)
      (idle (VerifyBudget.new 1 none) 0)
      [.spawn (.login ⟨"alice", "token"⟩),
        .advance 0 (.loaded (some alice)),
        .spawn (.register ⟨"bob", "token", "salt", ⟨65536, 3, 4⟩, "", "", "", "", none⟩),
        .advance 1 (.loaded none)] := by
  decide

end Accounts
end MindMapVault
