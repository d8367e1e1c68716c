import Mathlib.Data.Int.Log
import Mathlib.Data.Rat.Floor
import Mathlib.Algebra.Order.Round
import Mathlib.Tactic.Linarith
import Mathlib.Tactic.NormNum
import Mathlib.Tactic.Positivity
import Mathlib.Tactic.Ring
import Mathlib.Tactic.FieldSimp

/-!
# Rounded arithmetic

Rational numbers with a rounding after every operation. Exact arithmetic rounds
nothing; binary64 rounds to the nearest number with a significand of 53 bits,
ties to the even one. Both are instances of one structure, which carries what
programs rely on: rounding is monotone, leaves small natural numbers alone and
loses at most one part in `2 ^ 53`. The largest finite exponent is not modelled.
-/

/-- The nearest integer, the even one of two equally near. -/
def roundHalfEven (x : ℚ) : ℤ :=
  if x - ⌊x⌋ < 1 / 2 then ⌊x⌋
  else if 1 / 2 < x - ⌊x⌋ then ⌊x⌋ + 1
  else if ⌊x⌋ % 2 = 0 then ⌊x⌋
  else ⌊x⌋ + 1

theorem floor_le_roundHalfEven (x : ℚ) : ⌊x⌋ ≤ roundHalfEven x := by
  unfold roundHalfEven
  split_ifs <;> omega

theorem roundHalfEven_le_floor_add_one (x : ℚ) : roundHalfEven x ≤ ⌊x⌋ + 1 := by
  unfold roundHalfEven
  split_ifs <;> omega

@[simp] theorem roundHalfEven_intCast (number : ℤ) :
    roundHalfEven (number : ℚ) = number := by
  simp [roundHalfEven]

/-- Rounding moves a number by at most one half. -/
theorem sub_half_le_roundHalfEven (x : ℚ) : x - 1 / 2 ≤ roundHalfEven x := by
  have above := Int.lt_floor_add_one x
  have below := Int.floor_le x
  unfold roundHalfEven
  split_ifs <;> push_cast <;> linarith

theorem roundHalfEven_le_add_half (x : ℚ) : roundHalfEven x ≤ x + 1 / 2 := by
  have above := Int.lt_floor_add_one x
  have below := Int.floor_le x
  unfold roundHalfEven
  split_ifs <;> push_cast <;> linarith

theorem roundHalfEven_mono {x y : ℚ} (le : x ≤ y) :
    roundHalfEven x ≤ roundHalfEven y := by
  have floors : ⌊x⌋ ≤ ⌊y⌋ := Int.floor_le_floor le
  by_cases same : ⌊x⌋ = ⌊y⌋
  · -- In one unit interval the fractional parts decide.
    have parts : x - ⌊x⌋ ≤ y - ⌊y⌋ := by
      rw [same]
      linarith
    simp only [roundHalfEven]
    rw [same] at parts ⊢
    split_ifs <;> first | omega | (exfalso; linarith)
  · calc roundHalfEven x ≤ ⌊x⌋ + 1 := roundHalfEven_le_floor_add_one x
      _ ≤ ⌊y⌋ := by omega
      _ ≤ roundHalfEven y := floor_le_roundHalfEven y

/-- A number within one half below an even integer is rounded up to it. -/
theorem le_roundHalfEven_iff (even : ℤ) (isEven : even % 2 = 0) (x : ℚ) :
    even ≤ roundHalfEven x ↔ (even : ℚ) - 1 / 2 ≤ x := by
  constructor
  · intro le
    have rounded : (even : ℚ) ≤ roundHalfEven x := by exact_mod_cast le
    linarith [roundHalfEven_le_add_half x]
  · intro near
    have floor : ⌊(even : ℚ) - 1 / 2⌋ = even - 1 := by
      rw [Int.floor_eq_iff]
      push_cast
      constructor <;> linarith
    have tie : roundHalfEven ((even : ℚ) - 1 / 2) = even := by
      have half : (even : ℚ) - 1 / 2 - ((even - 1 : ℤ) : ℚ) = 1 / 2 := by
        push_cast
        ring
      rw [roundHalfEven, floor, half, if_neg (lt_irrefl _), if_neg (lt_irrefl _), if_neg (by omega)]
      omega
    exact tie.symm.le.trans (roundHalfEven_mono near)

/-- The exponent of the last bit of a significand of 53 bits. -/
def lastBit (x : ℚ) : ℤ := max (Int.log 2 |x| - 52) (-1074)

/-- The nearest binary64 number. -/
def toBinary64 (x : ℚ) : ℚ := roundHalfEven (x / 2 ^ lastBit x) * 2 ^ lastBit x

theorem two_zpow_pos (exponent : ℤ) : (0 : ℚ) < 2 ^ exponent := zpow_pos two_pos exponent

@[simp] theorem toBinary64_zero : toBinary64 0 = 0 := by
  have zero : roundHalfEven 0 = 0 := by exact_mod_cast roundHalfEven_intCast 0
  simp [toBinary64, zero]

theorem toBinary64_nonneg {x : ℚ} (nonneg : 0 ≤ x) : 0 ≤ toBinary64 x := by
  have quotient : 0 ≤ x / 2 ^ lastBit x := div_nonneg nonneg (two_zpow_pos _).le
  have rounded : 0 ≤ roundHalfEven (x / 2 ^ lastBit x) :=
    (Int.floor_nonneg.mpr quotient).trans (floor_le_roundHalfEven _)
  exact mul_nonneg (by exact_mod_cast rounded) (two_zpow_pos _).le

/-- A number that is a multiple of its last bit is left alone. -/
theorem toBinary64_of_multiple {x : ℚ} (multiple : ℤ) (equal : x = multiple * 2 ^ lastBit x) :
    toBinary64 x = x := by
  have quotient : x / 2 ^ lastBit x = multiple := (div_eq_iff (two_zpow_pos _).ne').mpr equal
  rw [toBinary64, quotient, roundHalfEven_intCast]
  exact equal.symm

theorem toBinary64_natCast {number : ℕ} (small : number < 2 ^ 53) :
    toBinary64 number = number := by
  have exponent : lastBit number ≤ 0 := by
    have logarithm : Int.log 2 |(number : ℚ)| ≤ 52 := by
      rw [Nat.abs_cast, Int.log_natCast]
      have bound := Nat.log_lt_of_lt_pow' (b := 2) (by decide) small
      omega
    unfold lastBit
    omega
  obtain ⟨places, equal⟩ := Int.eq_ofNat_of_zero_le (neg_nonneg.mpr exponent)
  refine toBinary64_of_multiple (number * 2 ^ places) ?_
  have power : (2 : ℚ) ^ lastBit number = (2 ^ places)⁻¹ := by
    rw [← neg_neg (lastBit number), equal, zpow_neg, zpow_natCast]
  rw [power]
  push_cast
  field_simp

theorem toBinary64_mono {x y : ℚ} (nonneg : 0 ≤ x) (le : x ≤ y) :
    toBinary64 x ≤ toBinary64 y := by
  rcases nonneg.eq_or_lt with rfl | positive
  · rw [toBinary64_zero]
    exact toBinary64_nonneg le
  have logarithms : Int.log 2 |x| ≤ Int.log 2 |y| := by
    rw [abs_of_pos positive, abs_of_pos (positive.trans_le le)]
    exact Int.log_mono_right positive le
  by_cases same : lastBit x = lastBit y
  · have quotients : x / 2 ^ lastBit y ≤ y / 2 ^ lastBit y :=
      div_le_div_of_nonneg_right le (two_zpow_pos _).le
    rw [toBinary64, toBinary64, same]
    exact mul_le_mul_of_nonneg_right
      (by exact_mod_cast roundHalfEven_mono quotients) (two_zpow_pos _).le
  -- A power of two separates the two numbers, and their roundings with them.
  have logarithm : lastBit y = Int.log 2 |y| - 52 := by
    unfold lastBit at same ⊢
    omega
  have less : lastBit x < lastBit y := by
    unfold lastBit at same ⊢
    omega
  have smallerLog : Int.log 2 |x| + 1 ≤ lastBit y + 52 := by
    unfold lastBit at less logarithm same ⊢
    omega
  obtain ⟨places, gap⟩ := Int.eq_ofNat_of_zero_le (show 0 ≤ lastBit y + 52 - lastBit x by omega)
  have upper : x < 2 ^ (lastBit y + 52) := by
    calc x < 2 ^ (Int.log 2 |x| + 1) := by
            have bound := Int.lt_zpow_succ_log_self (b := 2) (by decide) |x|
            rw [abs_of_pos positive] at bound ⊢
            exact_mod_cast bound
      _ ≤ 2 ^ (lastBit y + 52) := zpow_le_zpow_right₀ (by norm_num) smallerLog
  have left : toBinary64 x ≤ 2 ^ (lastBit y + 52) := by
    have split : (2 : ℚ) ^ (lastBit y + 52) =
        ((2 ^ places : ℤ) : ℚ) * 2 ^ lastBit x := by
      push_cast
      rw [← zpow_natCast, ← gap, ← zpow_add₀ two_ne_zero]
      congr 1
      omega
    have quotient : x / 2 ^ lastBit x ≤ ((2 ^ places : ℤ) : ℚ) := by
      rw [div_le_iff₀ (two_zpow_pos _), ← split]
      exact upper.le
    have rounded := roundHalfEven_mono quotient
    rw [roundHalfEven_intCast] at rounded
    rw [split, toBinary64]
    exact mul_le_mul_of_nonneg_right (by exact_mod_cast rounded) (two_zpow_pos _).le
  have right : 2 ^ (lastBit y + 52) ≤ toBinary64 y := by
    have lower : (2 : ℚ) ^ (lastBit y + 52) ≤ y := by
      have bound := Int.zpow_log_le_self (b := 2) (by decide)
        (abs_pos.mpr (positive.trans_le le).ne')
      rw [abs_of_pos (positive.trans_le le)] at bound
      rw [logarithm, sub_add_cancel, abs_of_pos (positive.trans_le le)]
      exact_mod_cast bound
    have split : (2 : ℚ) ^ (lastBit y + 52) =
        ((2 ^ 52 : ℤ) : ℚ) * 2 ^ lastBit y := by
      rw [zpow_add₀ two_ne_zero, mul_comm]
      norm_num
    have quotient : ((2 ^ 52 : ℤ) : ℚ) ≤ y / 2 ^ lastBit y := by
      rw [le_div_iff₀ (two_zpow_pos _), ← split]
      exact lower
    have rounded := roundHalfEven_mono quotient
    rw [roundHalfEven_intCast] at rounded
    rw [split, toBinary64]
    exact mul_le_mul_of_nonneg_right (by exact_mod_cast rounded) (two_zpow_pos _).le
  exact left.trans right

theorem le_toBinary64 {x : ℚ} (large : 1 / 10 ^ 9 ≤ x) :
    x * (1 - 1 / 2 ^ 53) ≤ toBinary64 x := by
  have positive : 0 < x := lt_of_lt_of_le (by norm_num) large
  have exponent : lastBit x = Int.log 2 x - 52 := by
    have logarithm : -30 ≤ Int.log 2 x := by
      rw [← Int.zpow_le_iff_le_log (by decide) positive]
      refine le_trans ?_ large
      norm_num
    rw [lastBit, abs_of_pos positive]
    omega
  have unit : (2 : ℚ) ^ lastBit x ≤ x / 2 ^ 52 := by
    have bound := Int.zpow_log_le_self (b := 2) (by decide) positive
    rw [exponent, zpow_sub₀ two_ne_zero]
    exact div_le_div_of_nonneg_right (by exact_mod_cast bound) (by positivity)
  calc x * (1 - 1 / 2 ^ 53) = x - x / 2 ^ 52 / 2 := by ring
    _ ≤ x - 2 ^ lastBit x / 2 := by linarith
    _ = (x / 2 ^ lastBit x - 1 / 2) * 2 ^ lastBit x := by
        rw [sub_mul, div_mul_cancel₀ _ (two_zpow_pos _).ne']
        ring
    _ ≤ toBinary64 x := mul_le_mul_of_nonneg_right (sub_half_le_roundHalfEven _) (two_zpow_pos _).le

/-- A rounding, with what it does not lose. -/
structure Rounding where
  round : ℚ → ℚ
  mono : ∀ {x y : ℚ}, 0 ≤ x → x ≤ y → round x ≤ round y
  natCast : ∀ {number : ℕ}, number < 2 ^ 53 → round number = number
  lower : ∀ {x : ℚ}, 1 / 10 ^ 9 ≤ x → x * (1 - 1 / 2 ^ 53) ≤ round x

namespace Rounding

/-- Exact arithmetic. -/
def exact : Rounding where
  round := id
  mono _ le := le
  natCast _ := rfl
  lower large := by
    have nonneg : (0 : ℚ) ≤ _ := le_trans (by norm_num) large
    exact mul_le_of_le_one_right nonneg (by norm_num)

@[simp] theorem exact_round (x : ℚ) : exact.round x = x := rfl

/-- IEEE 754 double precision, rounding to nearest. -/
def binary64 : Rounding where
  round := toBinary64
  mono := toBinary64_mono
  natCast := toBinary64_natCast
  lower := le_toBinary64

@[simp] theorem round_zero (rounding : Rounding) : rounding.round 0 = 0 := by
  exact_mod_cast @natCast rounding 0 (by norm_num)

theorem round_nonneg (rounding : Rounding) {x : ℚ} (nonneg : 0 ≤ x) :
    0 ≤ rounding.round x := by
  rw [← rounding.round_zero]
  exact rounding.mono (by rfl) nonneg

/-- Rounding does not pass a small natural number. -/
theorem natCast_le_round (rounding : Rounding) {number : ℕ} (small : number < 2 ^ 53)
    {x : ℚ} (le : (number : ℚ) ≤ x) : (number : ℚ) ≤ rounding.round x := by
  rw [← rounding.natCast small]
  exact rounding.mono (Nat.cast_nonneg number) le

end Rounding
