/-
The value of a decimal text as a rational number.

Whole numbers have their own reader; where it reads a text, it reads its value.
-/

import MigrationPlatform.Foundation.NumberText
import Mathlib.Algebra.Order.Field.Rat
import Mathlib.Data.Nat.Cast.Field
import Mathlib.Tactic.Positivity

namespace NumberText

/-- The digits as one number, and the power of ten it is multiplied by. -/
def decimal? (text : List Char) : Option (Nat × Int) :=
  let digits := text.takeWhile Char.isDigit
  let split := fraction (text.dropWhile Char.isDigit)
  if digits = [] then none
  else
    (exponent? split.2).map fun exponent =>
      (Nat.ofDigitChars 10 (digits ++ split.1) 0, exponent - split.1.length)

def value? (text : List Char) : Option ℚ :=
  (decimal? (unsigned text).2).map fun decimal =>
    (if (unsigned text).1 then -1 else 1) * (decimal.1 * 10 ^ decimal.2)

theorem magnitude_eq_scaled (text : List Char) :
    magnitude? text = (decimal? text).bind (fun decimal => scaled? decimal.1 decimal.2) := by
  unfold magnitude? decimal?
  dsimp only
  split
  · rfl
  · cases exponent? (fraction (text.dropWhile Char.isDigit)).2 with
    | none => rfl
    | some exponent => rfl

theorem scaled_value {mantissa magnitude : Nat} {exponent : Int}
    (whole : scaled? mantissa exponent = some magnitude) :
    (mantissa * 10 ^ exponent : ℚ) = magnitude := by
  cases exponent with
  | ofNat up =>
      rw [← Option.some.inj whole]
      push_cast
      rfl
  | negSucc down =>
      by_cases divides : mantissa % 10 ^ (down + 1) = 0
      · simp only [scaled?, if_pos divides] at whole
        rw [← Option.some.inj whole, zpow_negSucc,
          Nat.cast_div (Nat.dvd_of_mod_eq_zero divides) (by positivity), div_eq_mul_inv]
        push_cast
        rfl
      · simp only [scaled?, if_neg divides] at whole
        cases whole

theorem value_of_wholeNumber {text : List Char} {negative : Bool} {magnitude : Nat}
    (whole : wholeNumber? text = some (negative, magnitude)) :
    value? text = some (if negative then -(magnitude : ℚ) else magnitude) := by
  obtain ⟨found, read, same⟩ := Option.map_eq_some_iff.mp whole
  obtain ⟨sign, rfl⟩ := Prod.mk.inj same
  rw [magnitude_eq_scaled] at read
  obtain ⟨decimal, shape, scaled⟩ := Option.bind_eq_some_iff.mp read
  unfold value?
  rw [shape, Option.map_some, scaled_value scaled, sign]
  cases negative with
  | true => simp only [if_true, neg_one_mul]
  | false => simp only [Bool.false_eq_true, if_false, one_mul]

end NumberText
