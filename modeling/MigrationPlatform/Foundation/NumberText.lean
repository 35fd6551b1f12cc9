/-
Whole numbers as decimal texts.

A text has a sign, digits, perhaps a fraction and perhaps an exponent; the value
is whole where the exponent makes up for the fraction. A number is written in full
or in scientific form, with one digit before the point and the zeros at the end
left out. Both are read as the number that was written.
-/

import Mathlib.Algebra.Group.Nat.Defs
import Mathlib.Data.List.DropRight
import MigrationPlatform.Foundation.Decimals

namespace NumberText

open Decimals

def unsigned : List Char → Bool × List Char
  | '-' :: rest => (true, rest)
  | text => (false, text)

def fraction : List Char → List Char × List Char
  | '.' :: rest => (rest.takeWhile Char.isDigit, rest.dropWhile Char.isDigit)
  | text => ([], text)

theorem fraction_exponent (text : List Char) : fraction ('e' :: text) = ([], 'e' :: text) := rfl

theorem fraction_point (text : List Char) :
    fraction ('.' :: text) = (text.takeWhile Char.isDigit, text.dropWhile Char.isDigit) := rfl

def natural? (text : List Char) : Option Nat :=
  if text ≠ [] ∧ text.all Char.isDigit = true then some (Nat.ofDigitChars 10 text 0) else none

def exponent? : List Char → Option Int
  | [] => some 0
  | mark :: text =>
      if mark = 'e' ∨ mark = 'E' then
        match text with
        | '+' :: digits => (natural? digits).map Int.ofNat
        | '-' :: digits => (natural? digits).map (fun exponent => -Int.ofNat exponent)
        | digits => (natural? digits).map Int.ofNat
      else none

def scaled? (mantissa : Nat) : Int → Option Nat
  | .ofNat up => some (mantissa * 10 ^ up)
  | .negSucc down =>
      if mantissa % 10 ^ (down + 1) = 0 then some (mantissa / 10 ^ (down + 1)) else none

def magnitude? (text : List Char) : Option Nat :=
  let digits := text.takeWhile Char.isDigit
  let split := fraction (text.dropWhile Char.isDigit)
  if digits = [] then none
  else
    (exponent? split.2).bind fun exponent =>
      scaled? (Nat.ofDigitChars 10 (digits ++ split.1) 0) (exponent - split.1.length)

def wholeNumber? (text : List Char) : Option (Bool × Nat) :=
  (magnitude? (unsigned text).2).map (fun magnitude => ((unsigned text).1, magnitude))

def signed (negative : Bool) (text : List Char) : List Char := if negative then '-' :: text else text

def positional (number : Nat) : List Char := Nat.toDigits 10 number

def isZero (c : Char) : Bool := c == '0'

/-- An exponent has at least two digits. -/
def exponentDigits (exponent : Nat) : List Char :=
  if exponent < 10 then '0' :: positional exponent else positional exponent

def scientificFrom (first : Char) (rest : List Char) : List Char :=
  let tail := rest.rdropWhile isZero
  first :: ((if tail = [] then [] else '.' :: tail) ++ 'e' :: '+' :: exponentDigits rest.length)

def scientific (number : Nat) : List Char :=
  match positional number with
  | [] => []
  | first :: rest => scientificFrom first rest

theorem isDigit_of_positional {number : Nat} {c : Char} (member : c ∈ positional number) :
    c.isDigit = true := by
  rw [positional, ← toList_toString] at member
  exact isDigit_of_mem member

theorem positional_ne_nil (number : Nat) : positional number ≠ [] := by
  unfold positional
  exact Nat.toDigits_ne_nil

theorem positional_value (number : Nat) : Nat.ofDigitChars 10 (positional number) 0 = number :=
  Nat.ofDigitChars_ten_toDigits

theorem takeWhile_digits (digits rest : List Char) (all : ∀ c ∈ digits, c.isDigit = true)
    (stops : ∀ c ∈ rest.head?, c.isDigit = false) :
    (digits ++ rest).takeWhile Char.isDigit = digits ∧
      (digits ++ rest).dropWhile Char.isDigit = rest := by
  induction digits with
  | nil =>
      cases rest with
      | nil => exact ⟨rfl, rfl⟩
      | cons c rest =>
          have other := stops c rfl
          rw [List.nil_append, List.takeWhile_cons, List.dropWhile_cons, other]
          exact ⟨rfl, rfl⟩
  | cons c digits ih =>
      have first := all c List.mem_cons_self
      obtain ⟨taken, left⟩ := ih (fun other member => all other (List.mem_cons_of_mem _ member))
      rw [List.cons_append, List.takeWhile_cons, List.dropWhile_cons, first, if_pos rfl, if_pos rfl,
        taken, left]
      exact ⟨rfl, rfl⟩

theorem natural_digits {digits : List Char} (some_ : digits ≠ [])
    (all : ∀ c ∈ digits, c.isDigit = true) :
    natural? digits = some (Nat.ofDigitChars 10 digits 0) :=
  if_pos ⟨some_, List.all_eq_true.mpr all⟩

theorem natural_exponentDigits (exponent : Nat) : natural? (exponentDigits exponent) = some exponent := by
  have plain : natural? (positional exponent) = some exponent := by
    rw [natural_digits (positional_ne_nil exponent) (fun _c member => isDigit_of_positional member),
      positional_value]
  unfold exponentDigits
  split
  · have digits : ∀ c ∈ '0' :: positional exponent, c.isDigit = true := by
      intro c member
      rcases List.mem_cons.mp member with zero | later
      · rw [zero]
        rfl
      · exact isDigit_of_positional later
    have value : Nat.ofDigitChars 10 ('0' :: positional exponent) 0 = exponent := by
      rw [Nat.ofDigitChars_cons]
      exact positional_value exponent
    rw [natural_digits (List.cons_ne_nil _ _) digits, value]
  · exact plain

theorem magnitude_positional (number : Nat) : magnitude? (positional number) = some number := by
  have whole := takeWhile_digits (positional number) []
    (fun c member => isDigit_of_positional member) (fun c impossible => by cases impossible)
  rw [List.append_nil] at whole
  unfold magnitude?
  rw [whole.1, whole.2]
  simp only [fraction, exponent?, Option.bind_some]
  rw [if_neg (positional_ne_nil number), List.append_nil, positional_value]
  change some (number * 10 ^ 0) = some number
  rw [Nat.pow_zero, Nat.mul_one]

theorem ofDigitChars_zeros (digits : List Char) (zeros : Nat) :
    Nat.ofDigitChars 10 (digits ++ List.replicate zeros '0') 0 =
      Nat.ofDigitChars 10 digits 0 * 10 ^ zeros := by
  rw [Nat.ofDigitChars_append, Nat.ofDigitChars_replicate_zero, Nat.mul_comm]

theorem rdropWhile_zeros (text : List Char) :
    ∃ zeros, text = text.rdropWhile isZero ++ List.replicate zeros '0' := by
  induction text using List.reverseRecOn with
  | nil => exact ⟨0, rfl⟩
  | append_singleton text c ih =>
      by_cases zero : isZero c = true
      · obtain ⟨zeros, same⟩ := ih
        have digit : c = '0' := by
          unfold isZero at zero
          exact eq_of_beq zero
        refine ⟨zeros + 1, ?_⟩
        rw [List.rdropWhile_concat_pos _ _ _ zero, List.replicate_succ', ← List.append_assoc, ← same,
          digit]
      · refine ⟨0, ?_⟩
        rw [List.rdropWhile_concat_neg _ _ _ zero, List.replicate_zero, List.append_nil]

theorem magnitude_scientificFrom {first : Char} {rest : List Char}
    (digits : ∀ c ∈ first :: rest, c.isDigit = true) :
    magnitude? (scientificFrom first rest) = some (Nat.ofDigitChars 10 (first :: rest) 0) := by
  obtain ⟨zeros, split⟩ := rdropWhile_zeros rest
  have head := digits first List.mem_cons_self
  have written : exponent? ('e' :: '+' :: exponentDigits rest.length) = some (Int.ofNat rest.length) := by
    simp only [exponent?, true_or, if_true]
    rw [natural_exponentDigits, Option.map_some]
  have value : Nat.ofDigitChars 10 (first :: rest) 0 =
      Nat.ofDigitChars 10 (first :: rest.rdropWhile isZero) 0 * 10 ^ zeros := by
    rw [← ofDigitChars_zeros, List.cons_append, ← split]
  have length : rest.length = (rest.rdropWhile isZero).length + zeros := by
    have lengths := congrArg List.length split
    rw [List.length_append, List.length_replicate] at lengths
    exact lengths
  have shift : Int.ofNat rest.length - (rest.rdropWhile isZero).length = Int.ofNat zeros := by
    simp only [Int.ofNat_eq_natCast]
    omega
  have tailDigits : ∀ c ∈ rest.rdropWhile isZero, c.isDigit = true := by
    intro c member
    exact digits c (List.mem_cons_of_mem _ ((List.rdropWhile_prefix isZero _).subset member))
  unfold scientificFrom magnitude?
  simp only
  by_cases short : rest.rdropWhile isZero = []
  · rw [if_pos short, List.nil_append]
    have parts := takeWhile_digits [first] ('e' :: '+' :: exponentDigits rest.length)
      (fun c member => by rw [List.mem_singleton.mp member]; exact head)
      (fun c same => by cases same; rfl)
    rw [List.singleton_append] at parts
    rw [parts.1, parts.2, if_neg (List.cons_ne_nil _ _), fraction_exponent]
    simp only
    rw [written, Option.bind_some, List.append_nil]
    rw [short] at value shift
    rw [List.length_nil] at shift ⊢
    rw [shift, value]
    rfl
  · rw [if_neg short]
    have parts := takeWhile_digits [first]
      ('.' :: (rest.rdropWhile isZero ++ 'e' :: '+' :: exponentDigits rest.length))
      (fun c member => by rw [List.mem_singleton.mp member]; exact head)
      (fun c same => by cases same; rfl)
    have tail := takeWhile_digits (rest.rdropWhile isZero)
      ('e' :: '+' :: exponentDigits rest.length) tailDigits (fun c same => by cases same; rfl)
    rw [List.singleton_append] at parts
    rw [List.cons_append, parts.1, parts.2, if_neg (List.cons_ne_nil _ _), fraction_point]
    simp only
    rw [tail.1, tail.2, written, Option.bind_some, shift, List.singleton_append, value]
    rfl

theorem magnitude_scientific (number : Nat) : magnitude? (scientific number) = some number := by
  unfold scientific
  cases digits : positional number with
  | nil => exact absurd digits (positional_ne_nil number)
  | cons first rest =>
      change magnitude? (scientificFrom first rest) = some number
      rw [magnitude_scientificFrom, ← digits, positional_value]
      intro c member
      rw [← digits] at member
      exact isDigit_of_positional member

theorem unsigned_signed {text : List Char} (negative : Bool) (begins : ∀ c ∈ text.head?, c ≠ '-') :
    unsigned (signed negative text) = (negative, text) := by
  cases negative with
  | true => rfl
  | false =>
      cases text with
      | nil => rfl
      | cons c rest =>
          have other := begins c rfl
          change unsigned (c :: rest) = (false, c :: rest)
          unfold unsigned
          split
          · rename_i same
            cases same
            exact absurd rfl other
          · rfl

theorem ne_dash_of_isDigit {c : Char} (digit : c.isDigit = true) : c ≠ '-' := by
  intro same
  rw [same] at digit
  exact absurd digit (by decide)

theorem wholeNumber_positional (negative : Bool) (number : Nat) :
    wholeNumber? (signed negative (positional number)) = some (negative, number) := by
  have begins : ∀ c ∈ (positional number).head?, c ≠ '-' := fun c first =>
    ne_dash_of_isDigit (isDigit_of_positional (List.mem_of_mem_head? first))
  unfold wholeNumber?
  rw [unsigned_signed negative begins, magnitude_positional, Option.map_some]

theorem wholeNumber_scientific (negative : Bool) (number : Nat) :
    wholeNumber? (signed negative (scientific number)) = some (negative, number) := by
  have begins : ∀ c ∈ (scientific number).head?, c ≠ '-' := by
    intro c first
    unfold scientific at first
    cases digits : positional number with
    | nil => exact absurd digits (positional_ne_nil number)
    | cons digit rest =>
        rw [digits] at first
        have same : digit = c := Option.some.inj first
        have member : c ∈ positional number := by
          rw [digits, ← same]
          exact List.mem_cons_self
        exact ne_dash_of_isDigit (isDigit_of_positional member)
  unfold wholeNumber?
  rw [unsigned_signed negative begins, magnitude_scientific, Option.map_some]

theorem scientific_mark (number : Nat) : 'e' ∈ scientific number := by
  unfold scientific
  cases digits : positional number with
  | nil => exact absurd digits (positional_ne_nil number)
  | cons first rest =>
      change 'e' ∈ scientificFrom first rest
      exact List.mem_cons_of_mem _ (List.mem_append_right _ List.mem_cons_self)

end NumberText
