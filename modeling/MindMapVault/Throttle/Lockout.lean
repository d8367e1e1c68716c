import MindMapVault.Throttle.AuthThrottle

/-!
# Locks that last, and only after enough failures

Every order of calls on the throttle is allowed: attempts of any names overlap,
some that passed the check before a lock still fail while it lasts, and the
background timer prunes in between. What is proved is that a lock, once set,
refuses every attempt until it ends, and that it was set by a burst of as many
failures as the threshold, none further from the one before than a lock lasts,
and none from before the last success or the last lock.
-/

namespace MindMapVault
namespace Throttle

/-- The key of a credential, however its name is spelled. -/
abbrev FailureKey := String × CredentialKind

section Calls

variable (toLowercase : String → String) (key : FailureKey)

/-- The call records a failure of the credential. -/
def Timed.failsOn (timed : Timed) : Bool :=
  match timed.call with
  | .recordFailure username kind _ _ => (normalize toLowercase username, kind) == key
  | _ => false

/-- The call records a success of the credential. -/
def Timed.succeedsOn (timed : Timed) : Bool :=
  match timed.call with
  | .recordSuccess username kind => (normalize toLowercase username, kind) == key
  | _ => false

/-- The times at which failures of the credential were recorded. -/
def failureTimes (calls : List Timed) : List Nat :=
  (calls.filter (Timed.failsOn toLowercase key)).map Timed.now

end Calls

/-- The failures a call records are counted under these settings. -/
def Timed.Under (threshold lockoutMinutes : Int) (timed : Timed) : Prop :=
  match timed.call with
  | .recordFailure _ _ threshold' lockoutMinutes' =>
      threshold' = threshold ∧ lockoutMinutes' = lockoutMinutes
  | _ => True

instance (threshold lockoutMinutes : Int) :
    ∀ timed : Timed, Decidable (timed.Under threshold lockoutMinutes)
  | ⟨_, .recordFailure _ _ _ _⟩ => inferInstanceAs (Decidable (_ ∧ _))
  | ⟨_, .checkAddress _ _ _⟩ | ⟨_, .lockoutRemaining _ _⟩ | ⟨_, .recordSuccess _ _⟩
  | ⟨_, .prune⟩ => inferInstanceAs (Decidable True)

section Locks

variable (arithmetic : Rounding) (toLowercase : String → String)
  (threshold lockoutMinutes : Int) (key : FailureKey)

/-- The call is a failure that brings the count of the credential to the
threshold. -/
def LocksOn (throttle : AuthThrottle) (timed : Timed) : Prop :=
  timed.failsOn toLowercase key = true ∧
    threshold ≤ (throttle.record timed.now key).nextCount timed.now (lockoutLength lockoutMinutes)

instance (throttle : AuthThrottle) (timed : Timed) :
    Decidable (LocksOn toLowercase threshold lockoutMinutes key throttle timed) :=
  inferInstanceAs (Decidable (_ ∧ _))

/-- The throttle after the calls so far. -/
abbrev throttleAfter (calls : List Timed) : AuthThrottle :=
  (AuthThrottle.serve arithmetic toLowercase).after .new calls

/-- A stretch of calls whose failures are close to each other, without a success
and without a lock. -/
structure Streak (before stretch : List Timed) : Prop where
  close : (failureTimes toLowercase key stretch).IsChain fun earlier later =>
    later - earlier ≤ lockoutLength lockoutMinutes
  noSuccess : ∀ timed ∈ stretch, timed.succeedsOn toLowercase key = false
  noLock : ∀ front timed rest, stretch = front ++ timed :: rest →
    ¬ LocksOn toLowercase threshold lockoutMinutes key
      (throttleAfter arithmetic toLowercase (before ++ front)) timed

/-- The calls contain the burst that locked the credential until the given time:
a streak and one more failure close to its last, together as many failures as the
threshold, with no success since. -/
def LockedBy (calls : List Timed) (lockedUntil : Nat) : Prop :=
  ∃ before streak failure rest,
    calls = before ++ (streak ++ [failure]) ++ rest ∧
      Streak arithmetic toLowercase threshold lockoutMinutes key before streak ∧
      LocksOn toLowercase threshold lockoutMinutes key
        (throttleAfter arithmetic toLowercase (before ++ streak)) failure ∧
      ((failureTimes toLowercase key (streak ++ [failure])).length : Int) = threshold ∧
      (failureTimes toLowercase key (streak ++ [failure])).IsChain
        (fun earlier later => later - earlier ≤ lockoutLength lockoutMinutes) ∧
      (∀ timed ∈ rest, timed.succeedsOn toLowercase key = false) ∧
      lockedUntil = failure.now + lockoutLength lockoutMinutes

end Locks

section Steps

variable {arithmetic : Rounding} {toLowercase : String → String}
  {threshold lockoutMinutes : Int} {key : FailureKey}

variable (arithmetic toLowercase key) in
/-- What a call may do to the record of one credential: nothing, forget it once
it holds no lock, or count a failure. -/
theorem failures_serve (positive : 0 < threshold) (throttle : AuthThrottle) {timed : Timed}
    (settings : timed.Under threshold lockoutMinutes) :
    ((AuthThrottle.serve arithmetic toLowercase throttle timed).2.failures key =
        throttle.failures key ∧
      timed.failsOn toLowercase key = false ∧
      timed.succeedsOn toLowercase key = false) ∨
    ((AuthThrottle.serve arithmetic toLowercase throttle timed).2.failures key = none ∧
      timed.failsOn toLowercase key = false ∧
      (timed.succeedsOn toLowercase key = true ∨
        ∀ lockedUntil, throttle.lockedUntil key = some lockedUntil → lockedUntil ≤ timed.now)) ∨
    ((AuthThrottle.serve arithmetic toLowercase throttle timed).2.failures key =
        some ((throttle.record timed.now key).next timed.now threshold
          (lockoutLength lockoutMinutes)) ∧
      timed.failsOn toLowercase key = true ∧
      timed.succeedsOn toLowercase key = false) := by
  obtain ⟨now, call⟩ := timed
  cases call with
  | checkAddress address attemptClass limit =>
      refine .inl ⟨?_, rfl, rfl⟩
      exact congrFun (failures_checkAddress ..) key
  | lockoutRemaining username kind =>
      rcases lockoutRemaining_state toLowercase throttle now username kind with
        same | ⟨cleared, lockedUntil, locked, expired⟩
      · exact .inl ⟨congrFun (congrArg AuthThrottle.failures same) key, rfl, rfl⟩
      · have cleared := congrFun (congrArg AuthThrottle.failures cleared) key
        by_cases own : key = (normalize toLowercase username, kind)
        · subst own
          refine .inr (.inl ⟨cleared.trans (Function.update_self ..), rfl, .inr ?_⟩)
          intro other lockedOther
          rw [locked, Option.some.injEq] at lockedOther
          exact lockedOther ▸ expired
        · exact .inl ⟨cleared.trans (Function.update_of_ne own ..), rfl, rfl⟩
  | recordFailure username kind threshold' lockoutMinutes' =>
      obtain ⟨rfl, rfl⟩ := settings
      have recorded := congrFun (failures_recordFailure toLowercase throttle now
        username kind positive lockoutMinutes') key
      by_cases own : key = (normalize toLowercase username, kind)
      · subst own
        exact .inr (.inr ⟨recorded.trans (Function.update_self ..), beq_self_eq_true _, rfl⟩)
      · refine .inl ⟨recorded.trans (Function.update_of_ne own ..), ?_, rfl⟩
        exact beq_eq_false_iff_ne.mpr (Ne.symm own)
  | recordSuccess username kind =>
      by_cases own : key = (normalize toLowercase username, kind)
      · subst own
        exact .inr (.inl ⟨Function.update_self .., rfl, .inl (beq_self_eq_true _)⟩)
      · refine .inl ⟨Function.update_of_ne own .., rfl, ?_⟩
        exact beq_eq_false_iff_ne.mpr (Ne.symm own)
  | prune =>
      change ((throttle.failures key).filter (Failures.keeps now) = _ ∧ _) ∨
        ((throttle.failures key).filter (Failures.keeps now) = none ∧ _) ∨ _
      cases found : throttle.failures key with
      | none => exact .inl ⟨rfl, rfl, rfl⟩
      | some record =>
          by_cases kept : record.keeps now = true
          · exact .inl ⟨by rw [Option.filter_some, if_pos kept], rfl, rfl⟩
          · refine .inr (.inl ⟨by rw [Option.filter_some, if_neg kept], rfl, .inr ?_⟩)
            intro lockedUntil locked
            rw [AuthThrottle.lockedUntil, found, Option.bind_some] at locked
            by_contra lasts
            refine kept ?_
            rw [Failures.keeps, locked, Option.any_some,
              decide_eq_true (Nat.lt_of_not_le lasts), Bool.true_or]

/-! ### A lock lasts -/

variable (arithmetic) in
/-- A lock outlasts every call made before its end, successes apart. -/
theorem locked_serve (positive : 0 < threshold) {throttle : AuthThrottle} {timed : Timed}
    (settings : timed.Under threshold lockoutMinutes) {lockedAt lockedUntil : Nat}
    (locked : throttle.lockedUntil key = some lockedUntil)
    (long : lockedAt + lockoutLength lockoutMinutes ≤ lockedUntil) (after : lockedAt ≤ timed.now)
    (before : timed.now < lockedAt + lockoutLength lockoutMinutes)
    (noSuccess : timed.succeedsOn toLowercase key = false) :
    ∃ lockedUntil',
      (AuthThrottle.serve arithmetic toLowercase throttle timed).2.lockedUntil key =
          some lockedUntil' ∧
        lockedAt + lockoutLength lockoutMinutes ≤ lockedUntil' := by
  obtain ⟨record, found, until_⟩ := Option.bind_eq_some_iff.mp locked
  rcases failures_serve arithmetic toLowercase key positive throttle settings with
    ⟨same, _, _⟩ | ⟨_, _, success | ended⟩ | ⟨failed, _, _⟩
  · refine ⟨lockedUntil, ?_, long⟩
    rw [AuthThrottle.lockedUntil, same]
    exact locked
  · rw [noSuccess] at success
    cases success
  · have past := ended lockedUntil locked
    omega
  · rw [AuthThrottle.record, found, Option.getD_some] at failed
    rw [AuthThrottle.lockedUntil, failed, Option.bind_some]
    unfold Failures.next
    split_ifs
    · exact ⟨timed.now + lockoutLength lockoutMinutes, rfl, by omega⟩
    · exact ⟨lockedUntil, until_, long⟩

variable (arithmetic) in
theorem locked_after (positive : 0 < threshold) (lockedAt : Nat) (calls : List Timed)
    (settings : ∀ timed ∈ calls, timed.Under threshold lockoutMinutes)
    (timely : ∀ timed ∈ calls, lockedAt ≤ timed.now ∧
      timed.now < lockedAt + lockoutLength lockoutMinutes)
    (noSuccess : ∀ timed ∈ calls, timed.succeedsOn toLowercase key = false)
    {throttle : AuthThrottle} {lockedUntil : Nat}
    (locked : throttle.lockedUntil key = some lockedUntil)
    (long : lockedAt + lockoutLength lockoutMinutes ≤ lockedUntil) :
    ∃ lockedUntil',
      ((AuthThrottle.serve arithmetic toLowercase).after throttle calls).lockedUntil
          key = some lockedUntil' ∧
        lockedAt + lockoutLength lockoutMinutes ≤ lockedUntil' := by
  induction calls generalizing throttle lockedUntil with
  | nil => exact ⟨lockedUntil, locked, long⟩
  | cons timed calls ih =>
      have first := timely timed List.mem_cons_self
      obtain ⟨next, lockedNext, longNext⟩ :=
        locked_serve arithmetic positive (settings timed List.mem_cons_self) locked long
          first.1 first.2
        (noSuccess timed List.mem_cons_self)
      exact ih
        (fun other present => settings other (List.mem_cons_of_mem _ present))
        (fun other present => timely other (List.mem_cons_of_mem _ present))
        (fun other present => noSuccess other (List.mem_cons_of_mem _ present))
        lockedNext longNext

/-! ### A lock is earned -/

theorem failureTimes_other {timed : Timed} (other : timed.failsOn toLowercase key = false)
    (calls : List Timed) :
    failureTimes toLowercase key (calls ++ [timed]) = failureTimes toLowercase key calls := by
  simp [failureTimes, other]

theorem failureTimes_failure {timed : Timed} (fails : timed.failsOn toLowercase key = true)
    (calls : List Timed) :
    failureTimes toLowercase key (calls ++ [timed]) =
      failureTimes toLowercase key calls ++ [timed.now] := by
  simp [failureTimes, fails]

/-- One more close failure keeps a chain of failures. -/
theorem chain_concat {times : List Nat} {now : Nat} {lockout : Nat}
    (chain : times.IsChain fun earlier later => later - earlier ≤ lockout)
    (close : ∀ last ∈ times.getLast?, now - last ≤ lockout) :
    (times ++ [now]).IsChain fun earlier later => later - earlier ≤ lockout := by
  refine List.isChain_append.mpr ⟨chain, List.isChain_singleton now, ?_⟩
  intro last isLast first isFirst
  rw [List.head?_cons, Option.mem_some_iff] at isFirst
  exact isFirst ▸ close last isLast

/-- A streak goes on with a call that neither succeeds nor locks. -/
theorem Streak.concat {before stretch : List Timed} {timed : Timed}
    (streak : Streak arithmetic toLowercase threshold lockoutMinutes key before stretch)
    (close : (failureTimes toLowercase key (stretch ++ [timed])).IsChain
      fun earlier later => later - earlier ≤ lockoutLength lockoutMinutes)
    (noSuccess : timed.succeedsOn toLowercase key = false)
    (noLock : ¬ LocksOn toLowercase threshold lockoutMinutes key
      (throttleAfter arithmetic toLowercase (before ++ stretch)) timed) :
    Streak arithmetic toLowercase threshold lockoutMinutes key before (stretch ++ [timed]) where
  close := close
  noSuccess other present := by
    rcases List.mem_append.mp present with earlier | last
    · exact streak.noSuccess other earlier
    · exact List.mem_singleton.mp last ▸ noSuccess
  noLock front other rest split := by
    rcases List.eq_nil_or_concat' rest with rfl | ⟨middle, last, rfl⟩
    · obtain ⟨rfl, rfl⟩ := List.append_inj' split rfl |>.imp id List.singleton_inj.mp
      exact noLock
    · rw [← List.cons_append, ← List.append_assoc] at split
      exact streak.noLock front other middle (List.append_inj' split rfl).1

/-- An empty stretch is a streak. -/
theorem streak_nil (before : List Timed) :
    Streak arithmetic toLowercase threshold lockoutMinutes key before [] where
  close := List.isChain_nil
  noSuccess _ present := by cases present
  noLock _ _ _ split := by
    have lengths := congrArg List.length split
    simp at lengths

/-- Calls after the lock that are no success leave the burst where it is. -/
theorem LockedBy.concat {calls : List Timed} {timed : Timed} {lockedUntil : Nat}
    (locked : LockedBy arithmetic toLowercase threshold lockoutMinutes key calls lockedUntil)
    (noSuccess : timed.succeedsOn toLowercase key = false) :
    LockedBy arithmetic toLowercase threshold lockoutMinutes key (calls ++ [timed])
      lockedUntil := by
  obtain ⟨before, streak, failure, rest, rfl, isStreak, locks, count, close,
    noSuccessSince, until_⟩ := locked
  refine ⟨before, streak, failure, rest ++ [timed], by simp, isStreak, locks, count,
    close, fun other present => ?_, until_⟩
  rcases List.mem_append.mp present with earlier | last
  · exact noSuccessSince other earlier
  · exact List.mem_singleton.mp last ▸ noSuccess

variable (arithmetic toLowercase threshold lockoutMinutes key)

/-- What a record says about the calls that led to it: its count is that of a
streak up to now, and its lock was earned. -/
structure Earned (calls : List Timed) (record : Failures) : Prop where
  counted : ∃ before stretch, calls = before ++ stretch ∧
    Streak arithmetic toLowercase threshold lockoutMinutes key before stretch ∧
    ((failureTimes toLowercase key stretch).length : Int) = record.count ∧
    ∀ last ∈ (failureTimes toLowercase key stretch).getLast?, last = record.lastSeen
  below : record.count < threshold
  locked : ∀ lockedUntil, record.lockedUntil = some lockedUntil →
    LockedBy arithmetic toLowercase threshold lockoutMinutes key calls lockedUntil

variable {arithmetic toLowercase threshold lockoutMinutes key}

/-- A call that leaves the record alone leaves what it says. -/
theorem Earned.concat {calls : List Timed} {timed : Timed} {record : Failures}
    (earned : Earned arithmetic toLowercase threshold lockoutMinutes key calls record)
    (noFailure : timed.failsOn toLowercase key = false)
    (noSuccess : timed.succeedsOn toLowercase key = false) :
    Earned arithmetic toLowercase threshold lockoutMinutes key (calls ++ [timed]) record where
  counted := by
    obtain ⟨before, stretch, rfl, streak, count, last⟩ := earned.counted
    have times := failureTimes_other noFailure stretch
    refine ⟨before, stretch ++ [timed], by simp, streak.concat ?_ noSuccess ?_,
      by rw [times]; exact count, by rw [times]; exact last⟩
    · rw [times]
      exact streak.close
    · rintro ⟨fails, _⟩
      rw [noFailure] at fails
      cases fails
  below := earned.below
  locked lockedUntil held := (earned.locked lockedUntil held).concat noSuccess

/-- A fresh record says nothing. -/
theorem earned_fresh (positive : 0 < threshold) (calls : List Timed) (now : Nat) :
    Earned arithmetic toLowercase threshold lockoutMinutes key calls ⟨0, now, none⟩ where
  counted := ⟨calls, [], by simp, streak_nil calls, rfl, fun _ none => by cases none⟩
  below := positive
  locked _ held := by cases held

/-- The streak a failure ends: the one counted so far where the failure is close
to its last, and none otherwise. -/
theorem Earned.streakBefore {calls : List Timed} {record : Failures}
    (earned : Earned arithmetic toLowercase threshold lockoutMinutes key calls record) (now : Nat) :
    ∃ before stretch, calls = before ++ stretch ∧
      Streak arithmetic toLowercase threshold lockoutMinutes key before stretch ∧
      ((failureTimes toLowercase key stretch).length : Int) + 1 =
        record.nextCount now (lockoutLength lockoutMinutes) ∧
      ∀ last ∈ (failureTimes toLowercase key stretch).getLast?,
        now - last ≤ lockoutLength lockoutMinutes := by
  by_cases far : lockoutLength lockoutMinutes < now - record.lastSeen
  · refine ⟨calls, [], by simp, streak_nil calls, ?_, fun _ none => by cases none⟩
    rw [Failures.nextCount, if_pos far]
    rfl
  · obtain ⟨before, stretch, split, streak, count, last⟩ := earned.counted
    refine ⟨before, stretch, split, streak, ?_, fun time isLast => ?_⟩
    · rw [Failures.nextCount, if_neg far, count]
    · rw [last time isLast]
      omega

/-- Counting a failure keeps what the record says. -/
theorem Earned.next
    (positive : 0 < threshold) {calls : List Timed} {timed : Timed} {record : Failures}
    (fails : timed.failsOn toLowercase key = true)
    (noSuccess : timed.succeedsOn toLowercase key = false)
    (found : (throttleAfter arithmetic toLowercase calls).record timed.now key = record)
    (earned : Earned arithmetic toLowercase threshold lockoutMinutes key calls record) :
    Earned arithmetic toLowercase threshold lockoutMinutes key (calls ++ [timed])
      (record.next timed.now threshold (lockoutLength lockoutMinutes)) := by
  obtain ⟨before, stretch, split, streak, count, close⟩ := earned.streakBefore timed.now
  have times := failureTimes_failure fails stretch
  have chain : (failureTimes toLowercase key (stretch ++ [timed])).IsChain
      fun earlier later => later - earlier ≤ lockoutLength lockoutMinutes := by
    rw [times]
    exact chain_concat streak.close close
  have length : ((failureTimes toLowercase key (stretch ++ [timed])).length : Int) =
      record.nextCount timed.now (lockoutLength lockoutMinutes) := by
    rw [times, List.length_append, List.length_singleton]
    push_cast
    exact count
  have bound : record.nextCount timed.now (lockoutLength lockoutMinutes) ≤
      threshold := by
    have below := earned.below
    unfold Failures.nextCount
    split_ifs <;> omega
  unfold Failures.next
  by_cases reached : threshold ≤ record.nextCount timed.now (lockoutLength lockoutMinutes)
  · rw [if_pos reached]
    refine ⟨⟨calls ++ [timed], [], by simp, streak_nil _, rfl,
      fun _ none => by cases none⟩, positive, fun lockedUntil held => ?_⟩
    cases held
    refine ⟨before, stretch, timed, [], by simp [split], streak, ⟨fails, ?_⟩, ?_,
      chain, (fun _ present => by cases present), rfl⟩
    · rw [← split, found]
      exact reached
    · rw [length]
      exact le_antisymm bound reached
  · rw [if_neg reached]
    refine ⟨⟨before, stretch ++ [timed], by simp [split],
      streak.concat chain noSuccess ?_, length, fun last isLast => ?_⟩,
      not_le.mp reached, fun lockedUntil held =>
        (earned.locked lockedUntil held).concat noSuccess⟩
    · rintro ⟨_, locks⟩
      rw [← split, found] at locks
      exact reached locks
    · rw [times, List.getLast?_concat, Option.mem_some_iff] at isLast
      exact isLast.symm

/-- After any calls a record is earned by them. -/
theorem earned_after (positive : 0 < threshold) {calls : List Timed}
    (settings : ∀ timed ∈ calls, timed.Under threshold lockoutMinutes) {record : Failures}
    (found : (throttleAfter arithmetic toLowercase calls).failures key = some record) :
    Earned arithmetic toLowercase threshold lockoutMinutes key calls record := by
  induction calls using List.reverseRecOn generalizing record with
  | nil => cases found
  | append_singleton calls timed ih =>
      have others : ∀ timed ∈ calls, timed.Under threshold lockoutMinutes :=
        fun other present => settings other (List.mem_append_left _ present)
      rw [throttleAfter, Machine.after_concat] at found
      rcases failures_serve arithmetic toLowercase key positive
          (throttleAfter arithmetic toLowercase calls)
          (settings timed (List.mem_append_right _ (List.mem_singleton_self _))) with
        ⟨same, noFailure, noSuccess⟩ | ⟨forgotten, _⟩ | ⟨counted, fails, noSuccess⟩
      · rw [same] at found
        exact (ih others found).concat noFailure noSuccess
      · rw [forgotten] at found
        cases found
      · rw [counted, Option.some.injEq] at found
        subst found
        refine Earned.next positive fails noSuccess rfl ?_
        rw [AuthThrottle.record]
        cases known : (throttleAfter arithmetic toLowercase calls).failures key with
        | none => exact earned_fresh positive calls timed.now
        | some record => exact ih others known

end Steps

/-- From the failure that brings the count of a credential to the threshold, every
attempt under any spelling of its name is refused until the lock has lasted its
length, unless a success came in between; and a credential is locked only by a
burst of as many close failures as the threshold, after its last success and its
last lock. -/
theorem lockouts_last_and_are_earned (arithmetic : Rounding) (toLowercase : String → String)
    {threshold : Int} (positive : 0 < threshold) (lockoutMinutes : Int)
    (username : String) (kind : CredentialKind) (calls : List Timed) (inOrder : InOrder calls)
    (settings : ∀ timed ∈ calls, timed.Under threshold lockoutMinutes) :
    (∀ before failure during start spelling rest,
      calls = before ++ failure :: (during ++ ⟨start, .lockoutRemaining spelling kind⟩ :: rest) →
      LocksOn toLowercase threshold lockoutMinutes
        (normalize toLowercase username, kind)
        (throttleAfter arithmetic toLowercase before) failure →
      normalize toLowercase spelling = normalize toLowercase username →
      start < failure.now + lockoutLength lockoutMinutes →
      (∀ timed ∈ during,
        timed.succeedsOn toLowercase (normalize toLowercase username, kind) = false) →
      ∃ remaining,
        ((throttleAfter arithmetic toLowercase
          (before ++ failure :: during)).lockoutRemaining toLowercase start spelling
            kind).1 = some remaining) ∧
    (∀ start spelling remaining,
      normalize toLowercase spelling = normalize toLowercase username →
      ((throttleAfter arithmetic toLowercase calls).lockoutRemaining toLowercase start
        spelling kind).1 = some remaining →
      ∃ lockedUntil,
        LockedBy arithmetic toLowercase threshold lockoutMinutes
          (normalize toLowercase username, kind) calls lockedUntil ∧
        start + remaining = lockedUntil) := by
  constructor
  · intro before failure during start spelling rest split locks same soon noSuccess
    subst split
    obtain ⟨fails, reached⟩ := locks
    have under := settings failure (by simp)
    obtain ⟨_, later, _⟩ := List.pairwise_append.mp inOrder
    obtain ⟨afterFailure, later⟩ := List.pairwise_cons.mp later
    obtain ⟨_, _, beforeStart⟩ := List.pairwise_append.mp later
    -- The failure sets the lock.
    have locked : (throttleAfter arithmetic toLowercase (before ++ [failure])).lockedUntil
        (normalize toLowercase username, kind) =
          some (failure.now + lockoutLength lockoutMinutes) := by
      rw [throttleAfter, Machine.after_concat]
      rcases failures_serve arithmetic toLowercase
          (normalize toLowercase username, kind) positive
          (throttleAfter arithmetic toLowercase before) under with
        ⟨_, noFailure, _⟩ | ⟨_, noFailure, _⟩ | ⟨counted, _, _⟩
      · rw [noFailure] at fails
        cases fails
      · rw [noFailure] at fails
        cases fails
      · rw [AuthThrottle.lockedUntil, counted, Failures.next, if_pos reached, Option.bind_some]
    -- It outlasts the calls before the attempt.
    obtain ⟨lockedUntil, stillLocked, long⟩ := locked_after arithmetic
      positive failure.now during
      (fun timed present => settings timed (by simp [present]))
      (fun timed present => ⟨afterFailure timed (by simp [present]),
        Nat.lt_of_le_of_lt (beforeStart timed present _ List.mem_cons_self) soon⟩)
      noSuccess locked (Nat.le_refl _)
    rw [← Machine.after_append, List.append_assoc, List.singleton_append, ← same] at stillLocked
    refine ⟨lockedUntil - start, ?_⟩
    rw [lockoutRemaining_of_locked stillLocked (by omega)]
  · intro start spelling remaining same refused
    cases locked : (throttleAfter arithmetic toLowercase calls).lockedUntil
        (normalize toLowercase spelling, kind) with
    | none =>
        rw [lockoutRemaining_of_unlocked locked] at refused
        cases refused
    | some lockedUntil =>
        by_cases expired : lockedUntil ≤ start
        · rw [lockoutRemaining_of_expired locked expired] at refused
          cases refused
        · rw [lockoutRemaining_of_locked locked (by omega), Option.some.injEq] at refused
          obtain ⟨record, found, held⟩ := Option.bind_eq_some_iff.mp locked
          rw [same] at found
          exact ⟨lockedUntil, (earned_after positive settings found).locked _ held, by omega⟩

/-- Two failures of one account, spelled twice, and an attempt right after. -/
def sampleCalls : List Timed :=
  [⟨0, .recordFailure "Alice" .password 2 15⟩,
    ⟨5, .recordFailure " alice" .password 2 15⟩,
    ⟨7, .prune⟩,
    ⟨9, .lockoutRemaining "ALICE" .password⟩]

theorem lockouts_last_and_are_earned_sample :
    ∃ remaining,
      ((throttleAfter .exact toAsciiLowercase (sampleCalls.take 3)).lockoutRemaining
        toAsciiLowercase 9 "ALICE" .password).1 = some remaining :=
  (lockouts_last_and_are_earned .exact toAsciiLowercase (by decide : (0 : Int) < 2) 15
    "alice" .password sampleCalls (by decide) (by decide)).1
    (sampleCalls.take 1) ⟨5, .recordFailure " alice" .password 2 15⟩ [⟨7, .prune⟩] 9
    "ALICE" [] rfl (by decide +kernel) (by decide +kernel) (by decide +kernel)
    (by decide +kernel)

end Throttle
end MindMapVault
