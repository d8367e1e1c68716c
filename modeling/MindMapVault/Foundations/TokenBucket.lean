import Mathlib.Algebra.Order.Field.Basic
import Mathlib.Data.Nat.Cast.Order.Ring
import Mathlib.Tactic.Linarith
import Mathlib.Tactic.Ring

/-!
# Token buckets

A bucket holds up to a capacity of tokens and earns them back at a constant rate;
a call is admitted when a whole token is there, and takes it. The decisions of a
bucket are a list of times, each with whether the call was admitted. Bounded here
is how many calls are admitted in any interval, and when one is refused.
-/

universe u

namespace TokenBucket

/-- A call at a time, and whether it was admitted. -/
structure Decision where
  now : Nat
  admitted : Bool
  deriving DecidableEq

variable {K : Type u} [Field K] [LinearOrder K] [IsStrictOrderedRing K]

/-- The level at a time, from the level at an earlier one. -/
def refill (capacity rate level : K) (last now : Nat) : K :=
  min (level + rate * ((now - last : Nat) : K)) capacity

/-- The decisions a bucket takes from a level at a time. -/
def Follows (capacity rate : K) : K → Nat → List Decision → Prop
  | _, _, [] => True
  | level, last, decision :: decisions =>
      let current := refill capacity rate level last decision.now
      (decision.admitted = true ↔ 1 ≤ current) ∧
        Follows capacity rate (if decision.admitted then current - 1 else current)
          decision.now decisions

/-- The times of the admitted calls. -/
def admittedTimes (decisions : List Decision) : List Nat :=
  (decisions.filter Decision.admitted).map Decision.now

/-- The number of calls admitted from one time to another, both included. -/
def admittedBetween (first last : Nat) (decisions : List Decision) : Nat :=
  decisions.countP fun decision =>
    decision.admitted && decide (first ≤ decision.now) && decide (decision.now ≤ last)

/-- The calls come one after another, from a time on. -/
def Timely (start : Nat) (decisions : List Decision) : Prop :=
  (start :: decisions.map Decision.now).IsChain (· ≤ ·)

section Levels

variable {capacity rate level : K} {last now : Nat}

omit [IsStrictOrderedRing K] in
variable (capacity rate level last now) in
theorem refill_le_capacity : refill capacity rate level last now ≤ capacity := min_le_right _ _

omit [IsStrictOrderedRing K] in
variable (capacity rate level last now) in
theorem refill_le :
    refill capacity rate level last now ≤ level + rate * ((now - last : Nat) : K) :=
  min_le_left _ _

theorem refill_nonneg (full : 0 ≤ capacity) (earns : 0 ≤ rate) (nonneg : 0 ≤ level) :
    0 ≤ refill capacity rate level last now := by
  have earned : 0 ≤ rate * ((now - last : Nat) : K) := mul_nonneg earns (Nat.cast_nonneg _)
  exact le_min (by linarith) full

/-- Between two calls it does not matter where the level is looked at. -/
theorem refill_refill
    (earns : 0 ≤ rate) {middle : Nat} (first : last ≤ middle) (second : middle ≤ now) :
    refill capacity rate (refill capacity rate level last middle) middle now =
      refill capacity rate level last now := by
  have earned : 0 ≤ rate * ((now - middle : Nat) : K) := mul_nonneg earns (Nat.cast_nonneg _)
  have total : ((now - last : Nat) : K) =
      ((middle - last : Nat) : K) + ((now - middle : Nat) : K) := by
    rw [← Nat.cast_add]
    congr 1
    omega
  unfold refill
  rw [total, mul_add, ← add_assoc, ← min_add_add_right, min_assoc,
    min_eq_right (by linarith : capacity ≤ capacity + rate * ((now - middle : Nat) : K))]

/-- Without a call before it, the bucket may be looked at later. -/
theorem follows_refill_iff (earns : 0 ≤ rate) {middle : Nat} (first : last ≤ middle)
    (decisions : List Decision) (later : ∀ decision ∈ decisions.head?, middle ≤ decision.now) :
    Follows capacity rate (refill capacity rate level last middle) middle decisions ↔
      Follows capacity rate level last decisions := by
  cases decisions with
  | nil => exact Iff.rfl
  | cons decision decisions =>
      have second := later decision rfl
      simp only [Follows, refill_refill earns first second]

end Levels

section Decisions

variable {capacity rate : K}

theorem timely_cons {start : Nat} {decision : Decision} {decisions : List Decision} :
    Timely start (decision :: decisions) ↔ start ≤ decision.now ∧ Timely decision.now decisions :=
  List.isChain_cons_cons

theorem Timely.le {start : Nat} {decisions : List Decision} (timely : Timely start decisions) :
    ∀ decision ∈ decisions, start ≤ decision.now := by
  induction decisions generalizing start with
  | nil => exact fun _ present => by cases present
  | cons decision decisions ih =>
      obtain ⟨first, rest⟩ := timely_cons.mp timely
      intro other present
      rcases List.mem_cons.mp present with rfl | later
      · exact first
      · exact first.trans (ih rest other later)

/-- From a level on, no more calls are admitted than there are tokens and are
earned. -/
theorem admitted_le_of_follows
    (full : 0 ≤ capacity) (earns : 0 ≤ rate) (first : Nat) {last finish : Nat} {level : K}
    {decisions : List Decision} (nonneg : 0 ≤ level) (started : last ≤ finish)
    (timely : Timely last decisions) (follows : Follows capacity rate level last decisions) :
    (admittedBetween first finish decisions : K) ≤ level + rate * ((finish - last : Nat) : K) := by
  induction decisions generalizing level last with
  | nil =>
      have earned : 0 ≤ rate * ((finish - last : Nat) : K) := mul_nonneg earns (Nat.cast_nonneg _)
      simp only [admittedBetween, List.countP_nil, Nat.cast_zero]
      linarith
  | cons decision decisions ih =>
      obtain ⟨order, rest⟩ := timely_cons.mp timely
      obtain ⟨admits, next⟩ := follows
      by_cases late : finish < decision.now
      · -- Nothing from here on is counted.
        have none_counted :
            admittedBetween first finish (decision :: decisions) = 0 := by
          refine List.countP_eq_zero.mpr fun other present counted => ?_
          have after := (timely_cons.mpr ⟨le_rfl, rest⟩ :
            Timely decision.now (decision :: decisions)).le other present
          simp only [Bool.and_eq_true, decide_eq_true_eq] at counted
          omega
        rw [none_counted, Nat.cast_zero]
        have earned : 0 ≤ rate * ((finish - last : Nat) : K) := mul_nonneg earns (Nat.cast_nonneg _)
        linarith
      · have current := refill_le capacity rate level last decision.now
        have total : rate * ((finish - last : Nat) : K) =
            rate * ((decision.now - last : Nat) : K) +
              rate * ((finish - decision.now : Nat) : K) := by
          rw [← mul_add, ← Nat.cast_add]
          congr 2
          omega
        cases admitted : decision.admitted with
        | true =>
            rw [admitted, if_pos rfl] at next
            have enough := admits.mp admitted
            have others := ih (by linarith) (by omega) rest next
            have count : admittedBetween first finish (decision :: decisions) ≤
                admittedBetween first finish decisions + 1 := by
              unfold admittedBetween
              rw [List.countP_cons]
              split_ifs <;> omega
            calc (admittedBetween first finish (decision :: decisions) : K)
                ≤ (admittedBetween first finish decisions : K) + 1 := by
                  exact_mod_cast count
              _ ≤ level + rate * ((finish - last : Nat) : K) := by linarith
        | false =>
            rw [admitted, if_neg Bool.false_ne_true] at next
            have others := ih (refill_nonneg full earns nonneg) (by omega) rest next
            have count : admittedBetween first finish (decision :: decisions) =
                admittedBetween first finish decisions := by
              simp [admittedBetween, admitted]
            rw [count]
            linarith

/-- In any interval at most a full bucket and what is earned in it is admitted. -/
theorem admittedBetween_le
    (full : 0 ≤ capacity) (earns : 0 ≤ rate) {first finish last : Nat} {level : K}
    (interval : first ≤ finish) {decisions : List Decision} (nonneg : 0 ≤ level)
    (timely : Timely last decisions) (follows : Follows capacity rate level last decisions)
    (started : level ≤ capacity) :
    (admittedBetween first finish decisions : K) ≤
      capacity + rate * ((finish - first : Nat) : K) := by
  induction decisions generalizing level last with
  | nil =>
      have earned : 0 ≤ rate * ((finish - first : Nat) : K) := mul_nonneg earns (Nat.cast_nonneg _)
      simp only [admittedBetween, List.countP_nil, Nat.cast_zero]
      linarith
  | cons decision decisions ih =>
      obtain ⟨order, rest⟩ := timely_cons.mp timely
      by_cases early : decision.now < first
      · -- A call before the interval is not counted.
        have count : admittedBetween first finish (decision :: decisions) =
            admittedBetween first finish decisions := by
          simp [admittedBetween, early]
        obtain ⟨admits, next⟩ := follows
        rw [count]
        refine ih ?_ rest next ?_
        · split_ifs with admitted
          · have enough := admits.mp admitted
            linarith
          · exact refill_nonneg full earns nonneg
        · have bound := refill_le_capacity capacity rate level last decision.now
          split_ifs <;> linarith
      · by_cases before : last ≤ first
        · have looked := (follows_refill_iff earns before
            (decision :: decisions) fun other isHead => by
              rw [List.head?_cons, Option.mem_some_iff] at isHead
              exact isHead ▸ not_lt.mp early).mpr follows
          have counted := admitted_le_of_follows full earns first
            (refill_nonneg full earns nonneg) interval
            (timely_cons.mpr ⟨not_lt.mp early, rest⟩) looked
          have bound := refill_le_capacity capacity rate level last first
          linarith
        · by_cases finished : last ≤ finish
          · have counted := admitted_le_of_follows full earns first nonneg finished
              timely follows
            have shorter : rate * ((finish - last : Nat) : K) ≤
                rate * ((finish - first : Nat) : K) :=
              mul_le_mul_of_nonneg_left (Nat.cast_le.mpr (by omega)) earns
            linarith
          · have none_counted :
                admittedBetween first finish (decision :: decisions) = 0 := by
              refine List.countP_eq_zero.mpr fun other present counted => ?_
              have late := timely.le other present
              simp only [Bool.and_eq_true, decide_eq_true_eq] at counted
              omega
            have earned : 0 ≤ rate * ((finish - first : Nat) : K) :=
              mul_nonneg earns (Nat.cast_nonneg _)
            rw [none_counted, Nat.cast_zero]
            linarith

/-- A call is admitted once a whole token was earned since every admitted one. -/
theorem admitted_of_earned (full : 1 ≤ capacity) (earns : 0 ≤ rate) {last : Nat} {level : K}
    {earlier later : List Decision} {decision : Decision}
    (timely : Timely last (earlier ++ decision :: later))
    (follows : Follows capacity rate level last (earlier ++ decision :: later))
    (earned : ∀ other ∈ earlier, other.admitted = true →
      1 ≤ rate * ((decision.now - other.now : Nat) : K))
    (enough : 1 ≤ level + rate * ((decision.now - last : Nat) : K)) :
    decision.admitted = true := by
  induction earlier generalizing level last with
  | nil =>
      exact follows.1.mpr (le_min enough full)
  | cons other earlier ih =>
      obtain ⟨order, rest⟩ := timely_cons.mp timely
      obtain ⟨admits, next⟩ := follows
      have onward : other.now ≤ decision.now := rest.le decision (by simp)
      refine ih rest next
        (fun further present => earned further (List.mem_cons_of_mem _ present)) ?_
      by_cases admitted : other.admitted = true
      · have current := admits.mp admitted
        have since := earned other List.mem_cons_self admitted
        rw [if_pos admitted]
        linarith
      · have since : 0 ≤ rate * ((decision.now - other.now : Nat) : K) :=
          mul_nonneg earns (Nat.cast_nonneg _)
        have total : rate * ((decision.now - last : Nat) : K) =
            rate * ((other.now - last : Nat) : K) +
              rate * ((decision.now - other.now : Nat) : K) := by
          rw [← mul_add, ← Nat.cast_add]
          congr 2
          omega
        rw [if_neg admitted]
        unfold refill
        rw [← min_add_add_right]
        exact le_min (by linarith) (by linarith)

/-- A bucket of at least two tokens admits every call, as long as those it admits
are so far apart that a token was earned between them. -/
theorem all_admitted_of_spaced
    (large : 2 ≤ capacity) {last : Nat} {level : K} {decisions : List Decision}
    (level_ge : capacity - 1 ≤ level) (earns : 0 ≤ rate) (timely : Timely last decisions)
    (spaced : (last :: admittedTimes decisions).IsChain fun earlier later =>
      1 ≤ rate * ((later - earlier : Nat) : K))
    (follows : Follows capacity rate level last decisions) :
    ∀ decision ∈ decisions, decision.admitted = true := by
  induction decisions generalizing level last with
  | nil => exact fun _ present => by cases present
  | cons decision decisions ih =>
      obtain ⟨_, rest⟩ := timely_cons.mp timely
      obtain ⟨admits, next⟩ := follows
      have since : 0 ≤ rate * ((decision.now - last : Nat) : K) :=
        mul_nonneg earns (Nat.cast_nonneg _)
      have admitted : decision.admitted = true := admits.mpr (le_min (by linarith) (by linarith))
      rw [if_pos admitted] at next
      have times : admittedTimes (decision :: decisions) =
          decision.now :: admittedTimes decisions := by
        simp [admittedTimes, admitted]
      rw [times] at spaced
      obtain ⟨earned, others⟩ := List.isChain_cons_cons.mp spaced
      have refilled : refill capacity rate level last decision.now = capacity :=
        min_eq_right (by linarith)
      have remaining := ih (by rw [refilled]) rest others next
      intro other present
      rcases List.mem_cons.mp present with rfl | later
      · exact admitted
      · exact remaining other later

theorem all_admitted_of_full
    (large : 2 ≤ capacity) (earns : 0 ≤ rate) {last : Nat} {decisions : List Decision}
    (timely : Timely last decisions)
    (spaced : (admittedTimes decisions).IsChain fun earlier later =>
      1 ≤ rate * ((later - earlier : Nat) : K))
    (follows : Follows capacity rate capacity last decisions) :
    ∀ decision ∈ decisions, decision.admitted = true := by
  cases decisions with
  | nil => exact fun _ present => by cases present
  | cons decision decisions =>
      obtain ⟨_, rest⟩ := timely_cons.mp timely
      obtain ⟨admits, next⟩ := follows
      have since : 0 ≤ rate * ((decision.now - last : Nat) : K) :=
        mul_nonneg earns (Nat.cast_nonneg _)
      have full : refill capacity rate capacity last decision.now = capacity :=
        min_eq_right (by linarith)
      have admitted : decision.admitted = true := admits.mpr (by rw [full]; linarith)
      have times : admittedTimes (decision :: decisions) =
          decision.now :: admittedTimes decisions := by
        simp [admittedTimes, admitted]
      rw [if_pos admitted, full] at next
      have remaining := all_admitted_of_spaced large le_rfl earns rest (times ▸ spaced) next
      intro other present
      rcases List.mem_cons.mp present with rfl | later
      · exact admitted
      · exact remaining other later

end Decisions

end TokenBucket
