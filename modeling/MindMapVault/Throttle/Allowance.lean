import MindMapVault.Foundations.TokenBucket
import MindMapVault.Throttle.AuthThrottle

/-!
# What an address is allowed

The bucket of one address and class refines a token bucket: it is refilled only
when it is used, a refusal moves the time of its last refill as well, and an idle
one is dropped and made anew. What the token bucket bounds, it bounds too, whatever
other addresses and the other class do. Arithmetic is exact here.
-/

namespace MindMapVault
namespace Throttle

open TokenBucket

/-- The key of a bucket. -/
abbrev BucketKey := IpAddr × AttemptClass

/-- The call spends from the bucket. -/
def Timed.checks (key : BucketKey) (timed : Timed) : Bool :=
  match timed.call with
  | .checkAddress address attemptClass _ => (address, attemptClass) == key
  | _ => false

/-- The calls on the bucket are made under this limit. -/
def Timed.Within (key : BucketKey) (limit : Int) (timed : Timed) : Prop :=
  match timed.call with
  | .checkAddress address attemptClass limit' =>
      (address, attemptClass) = key → limit' = limit
  | _ => True

instance (key : BucketKey) (limit : Int) :
    ∀ timed : Timed, Decidable (timed.Within key limit)
  | ⟨_, .checkAddress _ _ _⟩ => inferInstanceAs (Decidable (_ → _))
  | ⟨_, .recordFailure _ _ _ _⟩ | ⟨_, .lockoutRemaining _ _⟩ | ⟨_, .recordSuccess _ _⟩
  | ⟨_, .prune⟩ => inferInstanceAs (Decidable True)

/-- The call was let through. -/
def Reply.admitted : Reply → Bool
  | .checked (.ok _) => true
  | _ => false

/-- The decisions on one bucket in a transcript. -/
def decisionsOn (key : BucketKey) (transcript : List (Timed × Reply)) :
    List Decision :=
  (transcript.filter fun entry => entry.1.checks key).map fun entry =>
    ⟨entry.1.now, entry.2.admitted⟩

theorem decisionsOn_cons_checks
    {key : BucketKey} {entry : Timed × Reply} (checks : entry.1.checks key = true)
    (transcript : List (Timed × Reply)) :
    decisionsOn key (entry :: transcript) =
      ⟨entry.1.now, entry.2.admitted⟩ :: decisionsOn key transcript := by
  simp [decisionsOn, checks]

theorem decisionsOn_cons_other
    {key : BucketKey} {entry : Timed × Reply} (other : entry.1.checks key = false)
    (transcript : List (Timed × Reply)) :
    decisionsOn key (entry :: transcript) = decisionsOn key transcript := by
  simp [decisionsOn, other]

theorem decisionsOn_append (key : BucketKey) (first second : List (Timed × Reply)) :
    decisionsOn key (first ++ second) = decisionsOn key first ++ decisionsOn key second := by
  simp [decisionsOn]

/-- Tokens earned back a nanosecond. -/
def earningRate (limit : Int) : ℚ := limit / (60 * 10 ^ 9)

/-- The tokens of a bucket at a time. -/
def allowance (limit : Int) (key : BucketKey) (throttle : AuthThrottle) (now : Nat) : ℚ :=
  (throttle.bucket limit now key).refilled .exact limit now

/-- A bucket was filled in the past, and not beyond its limit. -/
structure Sound (limit : Int) (key : BucketKey) (now : Nat) (throttle : AuthThrottle) :
    Prop where
  past : ∀ bucket, throttle.addresses key = some bucket → bucket.lastRefill ≤ now
  nonneg : ∀ bucket, throttle.addresses key = some bucket → 0 ≤ bucket.tokens
  filled : ∀ bucket, throttle.addresses key = some bucket → bucket.tokens ≤ limit

theorem asSecsF64_exact (duration : Nat) :
    asSecsF64 .exact duration = (duration : ℚ) / 10 ^ 9 := by
  have split : ((10 ^ 9 * (duration / 10 ^ 9) + duration % 10 ^ 9 : Nat) : ℚ) =
      duration := by
    rw [Nat.div_add_mod]
  simp only [asSecsF64, Rounding.exact_round]
  rw [← split]
  push_cast
  ring

theorem refilled_exact (limit : Int) (now : Nat) (bucket : Bucket) :
    bucket.refilled .exact limit now =
      refill (limit : ℚ) (earningRate limit) bucket.tokens bucket.lastRefill now := by
  simp only [Bucket.refilled, refill, asSecsF64_exact, perSecond, Rounding.exact_round, earningRate]
  congr 2
  ring

theorem earningRate_nonneg {limit : Int} (positive : 0 < limit) :
    0 ≤ earningRate limit := by
  have nonneg : (0 : ℚ) ≤ limit := by exact_mod_cast positive.le
  unfold earningRate
  positivity

section Steps

variable {limit : Int} {key : BucketKey} {now : Nat} {throttle : AuthThrottle}

theorem allowance_of_none (fresh : throttle.addresses key = none) :
    allowance limit key throttle now = limit := by
  rw [allowance, AuthThrottle.bucket, fresh, Option.getD_none, refilled_exact, refill, Nat.sub_self]
  simp

theorem allowance_of_some {bucket : Bucket} (found : throttle.addresses key = some bucket) :
    allowance limit key throttle now =
      refill (limit : ℚ) (earningRate limit) bucket.tokens bucket.lastRefill now := by
  rw [allowance, AuthThrottle.bucket, found, Option.getD_some, refilled_exact]

/-- The allowance grows as the level of a token bucket does. -/
theorem allowance_later (positive : 0 < limit) (sound : Sound limit key now throttle) {later : Nat}
    (le : now ≤ later) :
    allowance limit key throttle later =
      refill (limit : ℚ) (earningRate limit) (allowance limit key throttle now) now later := by
  cases found : throttle.addresses key with
  | none =>
      rw [allowance_of_none found, allowance_of_none found]
      have earned : 0 ≤ earningRate limit * ((later - now : Nat) : ℚ) :=
        mul_nonneg (earningRate_nonneg positive) (Nat.cast_nonneg _)
      exact (min_eq_right (by linarith)).symm
  | some bucket =>
      rw [allowance_of_some found, allowance_of_some found,
        refill_refill (earningRate_nonneg positive) (sound.past bucket found) le]

theorem Sound.later (sound : Sound limit key now throttle) {later : Nat}
    (le : now ≤ later) : Sound limit key later throttle where
  past bucket found := (sound.past bucket found).trans le
  nonneg := sound.nonneg
  filled := sound.filled

theorem allowance_nonneg (positive : 0 < limit) (sound : Sound limit key now throttle) :
    0 ≤ allowance limit key throttle now := by
  have full : (0 : ℚ) ≤ limit := by exact_mod_cast positive.le
  cases found : throttle.addresses key with
  | none =>
      rw [allowance_of_none found]
      exact full
  | some bucket =>
      rw [allowance_of_some found]
      exact refill_nonneg full (earningRate_nonneg positive) (sound.nonneg bucket found)

variable (limit key now throttle) in
theorem allowance_le : allowance limit key throttle now ≤ limit := min_le_right _ _

/-- A token is spent where one is there. -/
theorem spend_exact (limit : Int) (now : Nat) (tokens : ℚ) :
    spend .exact limit now tokens =
      if tokens < 1 then (.error (fromSecsF64 ((1 - tokens) / perSecond .exact limit)),
        ⟨tokens, now⟩)
      else (.ok (), ⟨tokens - 1, now⟩) := rfl

variable {toLowercase : String → String} {timed : Timed}

variable (toLowercase throttle) in
/-- A call on a bucket spends from its allowance. -/
theorem serve_checks (positive : 0 < limit) (within : timed.Within key limit)
    (checks : timed.checks key = true) :
    (AuthThrottle.serve .exact toLowercase throttle timed).1 =
        .checked (spend .exact limit timed.now (allowance limit key throttle timed.now)).1 ∧
      (AuthThrottle.serve .exact toLowercase throttle timed).2.addresses key =
        some (spend .exact limit timed.now (allowance limit key throttle timed.now)).2 := by
  obtain ⟨now, call⟩ := timed
  cases call with
  | checkAddress address attemptClass limit' =>
      have own : (address, attemptClass) = key := beq_iff_eq.mp checks
      have same : limit' = limit := within own
      subst own same
      simp only [AuthThrottle.serve]
      rw [checkAddress_of_limit positive]
      exact ⟨rfl, Function.update_self ..⟩
  | lockoutRemaining username kind => cases checks
  | recordFailure username kind threshold lockoutMinutes => cases checks
  | recordSuccess username kind => cases checks
  | prune => cases checks

variable (toLowercase throttle) in
/-- The other calls leave the bucket alone, or drop it once it is full. -/
theorem serve_other (other : timed.checks key = false) :
    (AuthThrottle.serve .exact toLowercase throttle timed).2.addresses key =
        throttle.addresses key ∨
      (AuthThrottle.serve .exact toLowercase throttle timed).2.addresses key = none ∧
        ∀ bucket, throttle.addresses key = some bucket →
          window ≤ timed.now - bucket.lastRefill := by
  obtain ⟨now, call⟩ := timed
  cases call with
  | checkAddress address attemptClass limit' =>
      have different : key ≠ (address, attemptClass) := (beq_eq_false_iff_ne.mp other).symm
      refine .inl ?_
      simp only [AuthThrottle.serve, AuthThrottle.checkAddress]
      split_ifs
      · rfl
      · exact Function.update_of_ne different ..
  | lockoutRemaining username kind =>
      exact .inl (congrFun (addresses_lockoutRemaining username kind) key)
  | recordFailure username kind threshold lockoutMinutes =>
      exact .inl (congrFun (addresses_recordFailure username kind threshold lockoutMinutes) key)
  | recordSuccess username kind =>
      exact .inl (congrFun (addresses_recordSuccess username kind) key)
  | prune =>
      change (throttle.addresses key).filter (Bucket.keeps now) = _ ∨
        (throttle.addresses key).filter (Bucket.keeps now) = none ∧ _
      cases found : throttle.addresses key with
      | none => exact .inl rfl
      | some bucket =>
          by_cases kept : bucket.keeps now = true
          · exact .inl (by rw [Option.filter_some, if_pos kept])
          · refine .inr ⟨by rw [Option.filter_some, if_neg kept], fun same equal => ?_⟩
            rw [Option.some.injEq] at equal
            subst equal
            exact Nat.not_lt.mp fun fresh => kept (decide_eq_true fresh)

/-- After a window without use a bucket is full. -/
theorem refill_window (positive : 0 < limit) {tokens : ℚ} (nonneg : 0 ≤ tokens) {last : Nat}
    (idle : window ≤ now - last) :
    refill (limit : ℚ) (earningRate limit) tokens last now = limit := by
  refine min_eq_right ?_
  have long : (60 * 10 ^ 9 : ℚ) ≤ ((now - last : Nat) : ℚ) := by
    exact_mod_cast idle
  have minute : earningRate limit * (60 * 10 ^ 9) = limit := by
    unfold earningRate
    field_simp
  have earned := mul_le_mul_of_nonneg_left long (earningRate_nonneg positive)
  linarith

/-- Calls on other keys, and pruning, leave the allowance. -/
theorem allowance_other (positive : 0 < limit) (sound : Sound limit key timed.now throttle)
    (other : timed.checks key = false) {later : Nat} (le : timed.now ≤ later) :
    allowance limit key (AuthThrottle.serve .exact toLowercase throttle timed).2 later =
      allowance limit key throttle later := by
  rcases serve_other throttle toLowercase other with
    same | ⟨dropped, idle⟩
  · simp only [allowance, AuthThrottle.bucket, same]
  · rw [allowance_of_none dropped]
    cases found : throttle.addresses key with
    | none => rw [allowance_of_none found]
    | some bucket =>
        have long := idle bucket found
        rw [allowance_of_some found, refill_window positive (sound.nonneg bucket found) (by omega)]

variable (toLowercase) in
theorem sound_other
    (sound : Sound limit key timed.now throttle) (other : timed.checks key = false) :
    Sound limit key timed.now (AuthThrottle.serve .exact toLowercase throttle timed).2 := by
  rcases serve_other throttle toLowercase other with
    same | ⟨dropped, _⟩
  · constructor
    · exact same ▸ sound.past
    · exact same ▸ sound.nonneg
    · exact same ▸ sound.filled
  · constructor <;>
      · intro bucket found
        rw [dropped] at found
        cases found

variable (toLowercase) in
/-- What is left after a call is sound again, and is what a token bucket keeps. -/
theorem sound_checks (positive : 0 < limit) (sound : Sound limit key timed.now throttle)
    (within : timed.Within key limit) (checks : timed.checks key = true) :
    Sound limit key timed.now
        (AuthThrottle.serve .exact toLowercase throttle timed).2 ∧
      ((AuthThrottle.serve .exact toLowercase throttle timed).1.admitted = true ↔
        1 ≤ allowance limit key throttle timed.now) ∧
      allowance limit key (AuthThrottle.serve .exact toLowercase throttle timed).2
          timed.now =
        if (AuthThrottle.serve .exact toLowercase throttle timed).1.admitted then
          allowance limit key throttle timed.now - 1
        else allowance limit key throttle timed.now := by
  obtain ⟨reply, bucket⟩ := serve_checks throttle toLowercase positive within checks
  have nonneg := allowance_nonneg positive sound
  have bound := allowance_le limit key timed.now throttle
  have left : ∀ tokens : ℚ, tokens ≤ limit →
      refill (limit : ℚ) (earningRate limit) tokens timed.now timed.now = tokens := by
    intro tokens le
    rw [refill, Nat.sub_self, Nat.cast_zero, mul_zero, add_zero]
    exact min_eq_left le
  rw [spend_exact] at reply bucket
  rw [reply]
  by_cases empty : allowance limit key throttle timed.now < 1
  · rw [if_pos empty] at bucket ⊢
    refine ⟨⟨?_, ?_, ?_⟩, ?_, ?_⟩
    · rintro _ found
      cases bucket.symm.trans found
      exact le_rfl
    · rintro _ found
      cases bucket.symm.trans found
      exact nonneg
    · rintro _ found
      cases bucket.symm.trans found
      exact bound
    · exact ⟨fun admitted => (Bool.false_ne_true admitted).elim,
        fun enough => absurd enough (not_le.mpr empty)⟩
    · rw [allowance_of_some bucket, left _ bound]
      rfl
  · rw [if_neg empty] at bucket ⊢
    have enough := not_lt.mp empty
    refine ⟨⟨?_, ?_, ?_⟩, ?_, ?_⟩
    · rintro _ found
      cases bucket.symm.trans found
      exact le_rfl
    · rintro _ found
      cases bucket.symm.trans found
      exact sub_nonneg.mpr enough
    · rintro _ found
      cases bucket.symm.trans found
      exact (sub_le_self _ zero_le_one).trans bound
    · exact ⟨fun _ => enough, fun _ => rfl⟩
    · rw [allowance_of_some bucket, left _ ((sub_le_self _ zero_le_one).trans bound)]
      rfl

end Steps

/-! ### Whole runs -/

section Runs

variable {limit : Int} {key : BucketKey} {toLowercase : String → String}

theorem inOrder_cons {timed : Timed} {calls : List Timed} :
    InOrder (timed :: calls) ↔ (∀ later ∈ calls, timed.now ≤ later.now) ∧ InOrder calls :=
  List.pairwise_cons

theorem sound_new (now : Nat) : Sound limit key now .new := by
  constructor <;>
    · intro bucket found
      cases found

/-- The decisions on a bucket come in the order of the calls. -/
theorem timely_decisionsOn {throttle : AuthThrottle} {last : Nat} {calls : List Timed}
    (inOrder : InOrder calls) (since : ∀ timed ∈ calls, last ≤ timed.now) :
    Timely last (decisionsOn key
      ((AuthThrottle.serve .exact toLowercase).transcript throttle calls)) := by
  induction calls generalizing throttle last with
  | nil => exact List.isChain_singleton _
  | cons timed calls ih =>
      obtain ⟨after, rest⟩ := inOrder_cons.mp inOrder
      have first := since timed List.mem_cons_self
      cases checks : timed.checks key with
      | true =>
          rw [Machine.transcript_cons, decisionsOn_cons_checks checks]
          exact timely_cons.mpr ⟨first, ih rest after⟩
      | false =>
          rw [Machine.transcript_cons, decisionsOn_cons_other checks]
          exact ih rest fun other present =>
            first.trans (after other present)

variable (toLowercase) in
/-- The decisions on a bucket are those of a token bucket. -/
theorem decisionsOn_follows
    (positive : 0 < limit) {throttle : AuthThrottle} {last : Nat} {calls : List Timed}
    (sound : Sound limit key last throttle) (inOrder : InOrder calls)
    (since : ∀ timed ∈ calls, last ≤ timed.now) (within : ∀ timed ∈ calls, timed.Within key limit) :
    Follows (limit : ℚ) (earningRate limit) (allowance limit key throttle last) last
      (decisionsOn key ((AuthThrottle.serve .exact toLowercase).transcript throttle calls)) := by
  induction calls generalizing throttle last with
  | nil => trivial
  | cons timed calls ih =>
      obtain ⟨after, rest⟩ := inOrder_cons.mp inOrder
      have first := since timed List.mem_cons_self
      have others : ∀ timed ∈ calls, timed.Within key limit := fun other present =>
        within other (List.mem_cons_of_mem _ present)
      have now := allowance_later positive sound first
      have soundNow := sound.later first
      cases checks : timed.checks key with
      | true =>
          obtain ⟨soundAfter, admits, left⟩ := sound_checks toLowercase positive soundNow
            (within timed List.mem_cons_self) checks
          have next := ih soundAfter rest after others
          rw [left] at next
          rw [Machine.transcript_cons, decisionsOn_cons_checks checks]
          refine ⟨?_, ?_⟩
          · rw [← now]
            exact admits
          · rw [← now]
            exact next
      | false =>
          have next := ih (sound_other toLowercase soundNow checks) rest after others
          rw [allowance_other positive soundNow checks le_rfl, now] at next
          rw [Machine.transcript_cons, decisionsOn_cons_other checks]
          refine (follows_refill_iff (earningRate_nonneg positive) first _ ?_).mp next
          intro decision isHead
          exact (timely_decisionsOn rest after).le decision (List.mem_of_mem_head? isHead)

/-- Without the calls on other keys and without pruning, the calls on a bucket are
answered the same. -/
theorem transcript_filter_checks
    (positive : 0 < limit) {calls : List Timed} (inOrder : InOrder calls)
    (within : ∀ timed ∈ calls, timed.Within key limit) :
    ((AuthThrottle.serve .exact toLowercase).transcript .new calls).filter
        (fun entry => entry.1.checks key) =
      (AuthThrottle.serve .exact toLowercase).transcript .new
        (calls.filter (Timed.checks key)) := by
  refine Machine.filter_transcript_of_simulation (Timed.checks key)
    (fun rest throttle throttle' => ∃ last,
      Sound limit key last throttle ∧ Sound limit key last throttle' ∧
        (∀ later, last ≤ later →
          allowance limit key throttle later = allowance limit key throttle' later) ∧
        InOrder rest ∧ (∀ timed ∈ rest, last ≤ timed.now) ∧
        ∀ timed ∈ rest, timed.Within key limit) ?_ ?_
    ⟨0, sound_new 0, sound_new 0, fun _ _ => rfl, inOrder, fun _ _ => Nat.zero_le _, within⟩
  · rintro timed rest throttle throttle' ⟨last, sound, sound', same, order, since,
      limited⟩ checks
    obtain ⟨after, order⟩ := inOrder_cons.mp order
    have first := since timed List.mem_cons_self
    have own := limited timed List.mem_cons_self
    obtain ⟨reply, bucket⟩ := serve_checks throttle toLowercase positive own checks
    obtain ⟨reply', bucket'⟩ := serve_checks throttle' toLowercase positive own checks
    rw [← same timed.now first] at reply' bucket'
    refine ⟨reply.trans reply'.symm, timed.now,
      (sound_checks toLowercase positive (sound.later first) own checks).1,
      (sound_checks toLowercase positive (sound'.later first) own checks).1, ?_, order, after,
      fun other present => limited other (List.mem_cons_of_mem _ present)⟩
    intro later _
    rw [allowance_of_some bucket, allowance_of_some bucket']
  · rintro timed rest throttle throttle' ⟨last, sound, sound', same, order, since,
      limited⟩ other
    obtain ⟨after, order⟩ := inOrder_cons.mp order
    have first := since timed List.mem_cons_self
    refine ⟨timed.now, sound_other toLowercase (sound.later first) other, sound'.later first, ?_,
      order, after, fun further present => limited further (List.mem_cons_of_mem _ present)⟩
    intro later le
    rw [allowance_other positive (sound.later first) other le]
    exact same later (first.trans le)

/-- The admitted calls on a bucket are at least as far apart as tokens are earned. -/
def Spaced (limit : Int) (key : BucketKey) (transcript : List (Timed × Reply)) : Prop :=
  (admittedTimes (decisionsOn key transcript)).IsChain fun earlier later =>
    60 / (limit : ℚ) ≤ ((later - earlier : Nat) : ℚ) / 10 ^ 9

/-- The seconds between two calls, in tokens. -/
theorem one_le_earned_iff (positive : 0 < limit) (elapsed : Nat) :
    1 ≤ earningRate limit * (elapsed : ℚ) ↔ 60 / (limit : ℚ) ≤ (elapsed : ℚ) / 10 ^ 9 := by
  have nonneg : (0 : ℚ) < limit := by exact_mod_cast positive
  have tokens : earningRate limit * (elapsed : ℚ) =
      (elapsed : ℚ) / 10 ^ 9 * limit / 60 := by
    unfold earningRate
    ring
  rw [tokens, div_le_iff₀ nonneg, le_div_iff₀ (by norm_num : (0 : ℚ) < 60), one_mul]

end Runs

/-- Calls of one class from one address, whatever else is called in between:
in any interval no more are admitted than the limit and its share of the interval;
what is called on other keys, and pruning, changes no answer; a call is refused only
if one was admitted less than `60 / limit` seconds before; and with a limit of at
least two none is refused while the admitted ones are that far apart. -/
theorem allowance_of_address (toLowercase : String → String) {limit : Int} (positive : 1 ≤ limit)
    (key : BucketKey) (calls : List Timed) (inOrder : InOrder calls)
    (within : ∀ timed ∈ calls, timed.Within key limit) :
    let serve := AuthThrottle.serve .exact toLowercase
    let transcript := serve.transcript .new calls
    (∀ first finish, first ≤ finish →
      (admittedBetween first finish (decisionsOn key transcript) : ℚ) ≤
        limit + limit * (((finish - first : Nat) : ℚ) / 10 ^ 9) / 60) ∧
    transcript.filter (fun entry => entry.1.checks key) =
      serve.transcript .new (calls.filter (Timed.checks key)) ∧
    (∀ earlier call wait later,
      transcript = earlier ++ (call, .checked (.error wait)) :: later →
      call.checks key = true →
      ∃ entry ∈ earlier, entry.1.checks key = true ∧ entry.2.admitted = true ∧
        ((call.now - entry.1.now : Nat) : ℚ) / 10 ^ 9 < 60 / limit) ∧
    (2 ≤ limit → Spaced limit key transcript →
      ∀ entry ∈ transcript, entry.1.checks key = true → entry.2.admitted = true) := by
  intro serve transcript
  have earns := earningRate_nonneg positive
  have oneLe : (1 : ℚ) ≤ limit := by exact_mod_cast positive
  have timely : Timely 0 (decisionsOn key transcript) :=
    timely_decisionsOn inOrder fun _ _ => Nat.zero_le _
  have follows : Follows (limit : ℚ) (earningRate limit) limit 0
      (decisionsOn key transcript) := by
    have run := decisionsOn_follows toLowercase positive (sound_new 0)
      inOrder (fun _ _ => Nat.zero_le _) within
    rwa [allowance_of_none rfl] at run
  refine ⟨fun first finish interval => ?_, transcript_filter_checks positive inOrder within,
    fun earlier call wait later split checks => ?_, fun two spaced => ?_⟩
  · have bound := admittedBetween_le (by linarith) earns interval (by linarith) timely
      follows le_rfl
    refine bound.trans (le_of_eq ?_)
    unfold earningRate
    ring
  · by_contra none
    have decisions : decisionsOn key transcript =
        decisionsOn key earlier ++ ⟨call.now, false⟩ :: decisionsOn key later := by
      rw [split, decisionsOn_append, decisionsOn_cons_checks checks]
      rfl
    rw [decisions] at timely follows
    have admitted := admitted_of_earned oneLe earns timely follows
      (fun decision present isAdmitted => by
        obtain ⟨entry, isEntry, rfl⟩ := List.mem_map.mp present
        obtain ⟨isEarlier, checksEntry⟩ := List.mem_filter.mp isEntry
        refine (one_le_earned_iff positive _).mpr (not_lt.mp fun recent => none ?_)
        exact ⟨entry, isEarlier, checksEntry, isAdmitted, recent⟩)
      (by
        have earned : 0 ≤ earningRate limit * ((call.now - 0 : Nat) : ℚ) :=
          mul_nonneg earns (Nat.cast_nonneg _)
        linarith)
    cases admitted
  · intro entry present checks
    have large : (2 : ℚ) ≤ limit := by exact_mod_cast two
    have apart := all_admitted_of_full large earns timely
      (spaced.imp fun _ _ gap => (one_le_earned_iff positive _).mpr gap) follows
    exact apart ⟨entry.1.now, entry.2.admitted⟩
      (List.mem_map.mpr ⟨entry, List.mem_filter.mpr ⟨present, checks⟩, rfl⟩)

section Sample

/-- One address signing in. -/
def sampleKey : BucketKey := (IpAddr.ofOctets 203 0 113 7, .credential)

/-- A call of it at a second. -/
def sampleCheck (limit : Int) (second : Nat) : Timed :=
  ⟨fromSecs second, .checkAddress sampleKey.1 sampleKey.2 limit⟩

theorem allowance_of_address_sample :
    (admittedBetween 0 (fromSecs 1) (decisionsOn sampleKey
      ((AuthThrottle.serve .exact toAsciiLowercase).transcript .new
        [sampleCheck 2 0, sampleCheck 2 0, sampleCheck 2 1])) : ℚ) ≤
      (2 : Int) + (2 : Int) * (((fromSecs 1 - 0 : Nat) : ℚ) / 10 ^ 9) / 60 :=
  (allowance_of_address toAsciiLowercase (by decide : (1 : Int) ≤ 2) sampleKey
    [sampleCheck 2 0, sampleCheck 2 0, sampleCheck 2 1]
    (by decide +kernel) (by decide +kernel)).1 0 (fromSecs 1) (Nat.zero_le _)

/-- With a limit of one, calls at 0, 30 and 60 seconds: the admitted ones are a
minute apart, and the second is refused. -/
theorem spaced_call_refused :
    ¬ ∀ (limit : Int) (key : BucketKey) (calls : List Timed), 1 ≤ limit →
      InOrder calls → (∀ timed ∈ calls, timed.Within key limit) →
      Spaced limit key ((AuthThrottle.serve .exact toAsciiLowercase).transcript .new calls) →
      ∀ entry ∈ (AuthThrottle.serve .exact toAsciiLowercase).transcript .new calls,
        entry.1.checks key = true → entry.2.admitted = true := by
  intro claimed
  have answer := claimed 1 sampleKey
    [sampleCheck 1 0, sampleCheck 1 30, sampleCheck 1 60] (by decide)
    (by decide +kernel) (by decide +kernel) (by unfold Spaced; decide +kernel)
  revert answer
  decide +kernel

end Sample

end Throttle
end MindMapVault
