import MindMapVault.Foundations.Ecma
import MindMapVault.Foundations.XmlText
import Mathlib.Algebra.GroupWithZero.Nat
import Mathlib.Data.List.TakeWhile

/-!
# Numbers as scripts read and write them

`parseInt` and `parseFloat` read the numeral that a text begins with. What they give is kept as
it is written, in decimal digits, and whether a double can hold it is a question of its own.
-/

namespace Ecma

/-- An integer as it is written in a text. -/
def intText (number : Int) : List Char :=
  if number < 0 then '-' :: Nat.toDigits 10 number.natAbs else Nat.toDigits 10 number.natAbs

/-- A sign, or none, and what comes after it. -/
def takeSign : List Char → Bool × List Char
  | [] => (false, [])
  | sign :: text =>
      if sign = '-' then (true, text) else if sign = '+' then (false, text)
      else (false, sign :: text)

/-- The value of decimal digits. -/
def decimalValue (digits : List Char) : Nat := (Xml.numeral 10 digits).getD 0

/-- `parseInt` in base ten, without rounding; `none` is `NaN`. -/
def parseInt (text : List Char) : Option Int :=
  let (negative, unsigned) := takeSign (trimStart text)
  let digits := unsigned.takeWhile isDigit
  if digits = [] then none
  else some (if negative then -(decimalValue digits : Int) else decimalValue digits)

/-- A decimal numeral with its sign, or an infinity. -/
inductive Numeral
  | infinity (negative : Bool)
  | decimal (negative : Bool) (mantissa : Nat) (exponent : Int)
  deriving DecidableEq

/-- The exponent of a numeral: it is part of it only if it has digits. -/
def takeExponent (text : List Char) : Int :=
  match text with
  | [] => 0
  | mark :: rest =>
      if mark = 'e' ∨ mark = 'E' then
        let (negative, unsigned) := takeSign rest
        let value := decimalValue (unsigned.takeWhile isDigit)
        if negative then -(value : Int) else value
      else 0

/-- The digits after a decimal point. -/
def takeFraction : List Char → List Char × List Char
  | [] => ([], [])
  | point :: text =>
      if point = '.' then (text.takeWhile isDigit, text.dropWhile isDigit) else ([], point :: text)

/-- `parseFloat`, without rounding; `none` is `NaN`. -/
def parseFloat (text : List Char) : Option Numeral :=
  let (negative, unsigned) := takeSign (trimStart text)
  if "Infinity".toList.isPrefixOf unsigned then some (.infinity negative)
  else
    let whole := unsigned.takeWhile isDigit
    let (fraction, rest) := takeFraction (unsigned.dropWhile isDigit)
    if whole = [] ∧ fraction = [] then none
    else some (.decimal negative (decimalValue (whole ++ fraction))
      (takeExponent rest - fraction.length))

namespace Numeral

/-- `Number.isFinite`: from half a step beyond the largest double on, a numeral is rounded to an
infinity. -/
def isFinite : Numeral → Bool
  | .infinity _ => false
  | .decimal _ mantissa exponent =>
      mantissa * 10 ^ exponent.toNat < (2 ^ 1024 - 2 ^ 970) * 10 ^ (-exponent).toNat

/-- `x < 0`: up to half of the smallest double, a numeral is rounded to zero. -/
def isNegative : Numeral → Bool
  | .infinity negative => negative
  | .decimal negative mantissa exponent =>
      negative && 10 ^ (-exponent).toNat < mantissa * 10 ^ exponent.toNat * 2 ^ 1075

end Numeral

section Written

theorem takeWhile_toDigits (number : Nat) :
    (Nat.toDigits 10 number).takeWhile isDigit = Nat.toDigits 10 number :=
  List.takeWhile_eq_self_iff.mpr (Xml.forall_toDigits (by decide) (by decide) number)

theorem decimalValue_toDigits (number : Nat) : decimalValue (Nat.toDigits 10 number) = number := by
  rw [decimalValue, Xml.numeral_toDigits (by decide) (by decide), Option.getD_some]

/-- A number is read as it was written. -/
theorem parseInt_toDigits (number : Nat) :
    parseInt (Nat.toDigits 10 number) = some (number : Int) := by
  have others : ∀ ch ∈ Nat.toDigits 10 number, isWhitespace ch = false ∧ ch ≠ '-' ∧ ch ≠ '+' :=
    Xml.forall_toDigits (by decide) (by decide) number
  have some : Nat.toDigits 10 number ≠ [] := Nat.toDigits_ne_nil
  have unsigned : takeSign (trimStart (Nat.toDigits 10 number)) =
      (false, Nat.toDigits 10 number) := by
    cases shape : Nat.toDigits 10 number with
    | nil => exact absurd shape some
    | cons first rest =>
        obtain ⟨dark, noMinus, noPlus⟩ := others first (by rw [shape]; exact List.mem_cons_self)
        rw [trimStart, List.dropWhile_cons_of_neg (by simp [dark]), takeSign, if_neg noMinus,
          if_neg noPlus]
  simp only [parseInt, unsigned, takeWhile_toDigits, some, decimalValue_toDigits, if_false]
  rfl

/-- So is one with a sign. -/
theorem parseInt_intText (number : Int) : parseInt (intText number) = some number := by
  unfold intText
  split_ifs with negative
  · have unsigned : takeSign (trimStart ('-' :: Nat.toDigits 10 number.natAbs)) =
        (true, Nat.toDigits 10 number.natAbs) := rfl
    have some : Nat.toDigits 10 number.natAbs ≠ [] := Nat.toDigits_ne_nil
    simp only [parseInt, unsigned, takeWhile_toDigits, some, decimalValue_toDigits, if_false,
      if_true]
    congr 1
    omega
  · rw [parseInt_toDigits]
    congr 1
    omega

end Written

end Ecma
