import MindMapVault.Throttle.Allowance

/-!
# Calls in between

What is left of the bucket of one address, and of the lock of one name, once calls on
others were made: each as it was, or dropped where that makes no difference.
-/

namespace MindMapVault
namespace Throttle

open TokenBucket

/-- The call is about the credential. -/
def Timed.concerns (toLowercase : String → String) (key : String × CredentialKind) (timed : Timed) :
    Bool :=
  match timed.call with
  | .lockoutRemaining username kind | .recordFailure username kind _ _
  | .recordSuccess username kind => (normalize toLowercase username, kind) == key
  | _ => false

/-- A request finds a token in its bucket and takes it, or is told what it lacks. -/
theorem checkAddress_exact
    {limit : Int} (positive : 0 < limit) (throttle : AuthThrottle) (now : Nat) (key : BucketKey) :
    throttle.checkAddress .exact now key.1 key.2 limit =
      if allowance limit key throttle now < 1 then
        (.error (fromSecsF64 (60 * (1 - allowance limit key throttle now) / limit)),
          { throttle with
            addresses := Function.update throttle.addresses key
              (some ⟨allowance limit key throttle now, now⟩) })
      else
        (.ok (),
          { throttle with
            addresses := Function.update throttle.addresses key
              (some ⟨allowance limit key throttle now - 1, now⟩) }) := by
  have wait : (1 - allowance limit key throttle now) / perSecond .exact limit =
      60 * (1 - allowance limit key throttle now) / limit := by
    rw [perSecond, Rounding.exact_round, div_div_eq_mul_div, mul_comm]
  have spent := spend_exact limit now (allowance limit key throttle now)
  rw [wait] at spent
  rw [checkAddress_of_limit positive]
  change ((spend .exact limit now (allowance limit key throttle now)).1,
    { throttle with
      addresses := Function.update throttle.addresses key
        (some (spend .exact limit now (allowance limit key throttle now)).2) }) = _
  rw [spent]
  split_ifs <;> rfl

section Calls

variable {toLowercase : String → String} {throttle : AuthThrottle}
  {calls : List Timed} {later : Nat}

section Buckets

variable {limit : Int} {key : BucketKey}

variable (toLowercase throttle) in
/-- Calls on other keys leave a bucket, or drop it after a window without use. -/
theorem addresses_after_others (others : ∀ timed ∈ calls, timed.checks key = false)
    (before : ∀ timed ∈ calls, timed.now ≤ later) :
    ((AuthThrottle.serve .exact toLowercase).after throttle calls).addresses key =
        throttle.addresses key ∨
      ((AuthThrottle.serve .exact toLowercase).after throttle calls).addresses key =
          none ∧
        ∀ bucket, throttle.addresses key = some bucket → window ≤ later - bucket.lastRefill := by
  refine Machine.after_invariant_of_mem
    (fun reached : AuthThrottle => reached.addresses key = throttle.addresses key ∨
      reached.addresses key = none ∧ ∀ bucket, throttle.addresses key = some bucket →
        window ≤ later - bucket.lastRefill) ?_ (.inl rfl)
  intro timed present reached soFar
  have now := before timed present
  rcases serve_other reached toLowercase (others timed present) with
    same | ⟨dropped, idle⟩
  · rw [same]
    exact soFar
  · refine .inr ⟨dropped, fun bucket found => ?_⟩
    rcases soFar with kept | ⟨_, long⟩
    · have long := idle bucket (kept.trans found)
      omega
    · exact long bucket found

variable (limit toLowercase throttle) in
/-- They do not lower the allowance. -/
theorem le_allowance_after_others (others : ∀ timed ∈ calls, timed.checks key = false)
    (before : ∀ timed ∈ calls, timed.now ≤ later) :
    allowance limit key throttle later ≤
      allowance limit key ((AuthThrottle.serve .exact toLowercase).after throttle calls) later := by
  rcases addresses_after_others toLowercase throttle others before with same | ⟨dropped, _⟩
  · simp only [allowance, AuthThrottle.bucket, same]
    exact le_rfl
  · rw [allowance_of_none dropped]
    exact allowance_le limit key later throttle

variable (toLowercase) in
/-- They do not raise it either, since a bucket is full when it is dropped. -/
theorem allowance_after_others (positive : 0 < limit)
    (nonneg : ∀ bucket, throttle.addresses key = some bucket → 0 ≤ bucket.tokens)
    (others : ∀ timed ∈ calls, timed.checks key = false)
    (before : ∀ timed ∈ calls, timed.now ≤ later) :
    allowance limit key ((AuthThrottle.serve .exact toLowercase).after throttle calls)
        later = allowance limit key throttle later := by
  rcases addresses_after_others toLowercase throttle others before with same | ⟨dropped, idle⟩
  · simp only [allowance, AuthThrottle.bucket, same]
  · rw [allowance_of_none dropped]
    cases found : throttle.addresses key with
    | none => rw [allowance_of_none found]
    | some bucket =>
        rw [allowance_of_some found,
          refill_window positive (nonneg bucket found) (idle bucket found)]

end Buckets

section Locks

variable {key : String × CredentialKind}

/-- Calls on other names leave a record, or drop it once it holds no lock. -/
theorem failures_serve_others (arithmetic : Rounding) {timed : Timed}
    (other : timed.concerns toLowercase key = false) :
    (AuthThrottle.serve arithmetic toLowercase throttle timed).2.failures key =
        throttle.failures key ∨
      (AuthThrottle.serve arithmetic toLowercase throttle timed).2.failures key = none := by
  obtain ⟨now, call⟩ := timed
  cases call with
  | checkAddress address attemptClass limit =>
      exact .inl (congrFun (failures_checkAddress ..) key)
  | lockoutRemaining username kind =>
      have different := (beq_eq_false_iff_ne.mp other).symm
      refine .inl ?_
      simp only [AuthThrottle.serve]
      rcases lockoutRemaining_state toLowercase throttle now username kind with
        same | ⟨cleared, _⟩
      · rw [same]
      · rw [cleared]
        exact Function.update_of_ne different ..
  | recordFailure username kind threshold lockoutMinutes =>
      have different := (beq_eq_false_iff_ne.mp other).symm
      refine .inl ?_
      simp only [AuthThrottle.serve, AuthThrottle.recordFailure]
      split_ifs
      · rfl
      · exact Function.update_of_ne different ..
  | recordSuccess username kind =>
      have different := (beq_eq_false_iff_ne.mp other).symm
      exact .inl (Function.update_of_ne different ..)
  | prune =>
      change (throttle.failures key).filter (Failures.keeps now) = _ ∨
        (throttle.failures key).filter (Failures.keeps now) = none
      cases throttle.failures key with
      | none => exact .inl rfl
      | some record =>
          rw [Option.filter_some]
          split_ifs
          · exact .inl rfl
          · exact .inr rfl

variable (throttle) in
/-- A lock is as it was, or gone. -/
theorem lockedUntil_after_others (arithmetic : Rounding)
    (others : ∀ timed ∈ calls, timed.concerns toLowercase key = false) :
    ((AuthThrottle.serve arithmetic toLowercase).after throttle calls).lockedUntil key =
        throttle.lockedUntil key ∨
      ((AuthThrottle.serve arithmetic toLowercase).after throttle calls).lockedUntil
        key = none := by
  refine Machine.after_invariant_of_mem
    (fun reached : AuthThrottle => reached.lockedUntil key = throttle.lockedUntil key ∨
      reached.lockedUntil key = none) ?_ (.inl rfl)
  intro timed present reached soFar
  simp only [AuthThrottle.lockedUntil] at soFar ⊢
  rcases failures_serve_others arithmetic (others timed present) with same | dropped
  · rw [same]
    exact soFar
  · rw [dropped]
    exact .inr rfl

end Locks

end Calls

end Throttle
end MindMapVault
