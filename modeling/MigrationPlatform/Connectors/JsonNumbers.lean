/-
Numbers on their way through JSON.

Decoding into `any` makes every number a `float64`, and encoding writes that as the
shortest decimal that is read as the same one. Only numbers whose value is whole
are embedded; what becomes of the others is a parameter.
-/

import MigrationPlatform.Connectors.FileConnectors
import MigrationPlatform.Foundation.NumberText
import MigrationPlatform.Foundation.ShortestDecimal

namespace MigrationPlatform.Connectors

open BinaryRounding ShortestDecimal NumberText

def significandBits : Nat := 53

def float64 (magnitude : Nat) : Nat := roundTo significandBits magnitude

def float64Limit : Nat := 2 ^ 1024

/-- The decimal of a `float64`, for a precision of -1. -/
def shortestDigits (magnitude : Nat) : Nat := shortest significandBits magnitude

/-- From `1e21` on the format is `e`. -/
def floatEncoder (negative : Bool) (magnitude : Nat) : String :=
  let decimal := shortestDigits magnitude
  String.ofList (signed negative
    (if magnitude < 10 ^ 21 then positional decimal else scientific decimal))

/-- The text under which a number of the source goes on; `none` where it is out of range. -/
def convertNumber (fraction : String → Option String) (literal : String) : Option String :=
  match wholeNumber? literal.toList with
  | none => fraction literal
  | some (negative, magnitude) =>
      if float64 magnitude < float64Limit then some (floatEncoder negative (float64 magnitude)) else none

/-- Nothing but whole numbers is read. -/
def wholeOnly : String → Option String := fun _ => none

def integerLiteral (negative : Bool) (magnitude : Nat) : String :=
  String.ofList (signed negative (positional magnitude))

def signedInteger (negative : Bool) (magnitude : Nat) : Int :=
  if negative then -(magnitude : Int) else magnitude

def integerOf (text : String) : Option Int :=
  (wholeNumber? text.toList).map (fun number => signedInteger number.1 number.2)

/-- The integer is the decimal that is written for its own `float64`. -/
def Exact (magnitude : Nat) : Prop :=
  magnitude = 0 ∨ IsShortest significandBits (float64 magnitude) magnitude

theorem significandBits_pos : 0 < significandBits := by decide

theorem significand_lt_limit : 2 ^ significandBits < float64Limit := by
  have wider : significandBits < 1024 := by decide
  unfold float64Limit
  gcongr
  exact Nat.one_lt_two

private theorem wholeNumber_literal (negative : Bool) (magnitude : Nat) :
    wholeNumber? (integerLiteral negative magnitude).toList = some (negative, magnitude) := by
  rw [integerLiteral, String.toList_ofList]
  exact wholeNumber_positional negative magnitude

theorem wholeNumber_encoded (negative : Bool) (magnitude : Nat) :
    wholeNumber? (floatEncoder negative magnitude).toList =
      some (negative, shortestDigits magnitude) := by
  unfold floatEncoder
  simp only [String.toList_ofList]
  split
  · exact wholeNumber_positional negative _
  · exact wholeNumber_scientific negative _

theorem float64_float64 (magnitude : Nat) : float64 (float64 magnitude) = float64 magnitude :=
  roundTo_roundTo significandBits_pos magnitude

private theorem float64_shortestDigits (magnitude : Nat) :
    float64 (shortestDigits (float64 magnitude)) = float64 magnitude :=
  roundTo_shortest significandBits_pos (float64_float64 magnitude)

theorem convertNumber_literal (fraction : String → Option String) (negative : Bool) (magnitude : Nat) :
    convertNumber fraction (integerLiteral negative magnitude) =
      if float64 magnitude < float64Limit then some (floatEncoder negative (float64 magnitude))
      else none := by
  unfold convertNumber
  rw [wholeNumber_literal]

theorem convertNumber_encoded (fraction : String → Option String) (negative : Bool) {magnitude : Nat}
    (finite : float64 magnitude < float64Limit) :
    convertNumber fraction (floatEncoder negative (float64 magnitude)) =
      some (floatEncoder negative (float64 magnitude)) := by
  unfold convertNumber
  rw [wholeNumber_encoded]
  simp only
  rw [float64_shortestDigits, if_pos finite]

theorem integerOf_encoded (negative : Bool) (magnitude : Nat) :
    integerOf (floatEncoder negative magnitude) =
      some (signedInteger negative (shortestDigits magnitude)) := by
  unfold integerOf
  rw [wholeNumber_encoded, Option.map_some]

theorem signedInteger_inj {negative : Bool} {left right : Nat} :
    signedInteger negative left = signedInteger negative right ↔ left = right := by
  unfold signedInteger
  cases negative with
  | true =>
      rw [if_pos rfl, if_pos rfl]
      omega
  | false =>
      rw [if_neg (Bool.false_ne_true), if_neg (Bool.false_ne_true)]
      omega

private theorem float64_pos {magnitude : Nat} (positive : 0 < magnitude) :
    0 < float64 magnitude := by
  rcases Nat.eq_zero_or_pos (float64 magnitude) with zero | given
  · have same := (roundTo_eq_iff_of_lt significandBits_pos (Nat.two_pow_pos _)).mp zero
    omega
  · exact given

theorem shortestDigits_eq_iff (magnitude : Nat) :
    shortestDigits (float64 magnitude) = magnitude ↔ Exact magnitude := by
  unfold Exact
  rcases Nat.eq_zero_or_pos magnitude with zero | positive
  · have small : magnitude < 2 ^ significandBits := by
      rw [zero]
      exact Nat.two_pow_pos _
    have same : float64 magnitude = magnitude :=
      roundTo_of_representable significandBits_pos (representable_of_lt small)
    rw [same]
    constructor
    · intro _own
      exact .inl zero
    · intro _own
      exact shortest_of_lt significandBits_pos small
  · have iff := shortest_eq_iff (d := magnitude) significandBits_pos (float64_pos positive)
      (float64_float64 magnitude)
    constructor
    · intro same
      exact .inr (iff.mp same)
    · intro exact_
      rcases exact_ with zero | own
      · omega
      · exact iff.mpr own

theorem exact_of_lt {magnitude : Nat} (small : magnitude < 2 ^ significandBits) : Exact magnitude := by
  rw [← shortestDigits_eq_iff]
  have same : float64 magnitude = magnitude :=
    roundTo_of_representable significandBits_pos (representable_of_lt small)
  rw [same]
  exact shortest_of_lt significandBits_pos small

section Values

variable (convert : String → Option String)

mutual

/-- A value whose numbers are decoded; `none` where one of them is out of range. -/
def decodeValue : Value → Option Value
  | .number literal => (convert literal).map .number
  | .list items => (decodeItems items).map .list
  | .object fields => (decodeFields fields).map .object
  | .null => some .null
  | .bool value => some (.bool value)
  | .text value => some (.text value)

def decodeItems : List Value → Option (List Value)
  | [] => some []
  | item :: rest =>
      match decodeValue item, decodeItems rest with
      | some first, some later => some (first :: later)
      | _, _ => none

def decodeFields : List (String × Value) → Option (List (String × Value))
  | [] => some []
  | (key, value) :: rest =>
      match decodeValue value, decodeFields rest with
      | some first, some later => some ((key, first) :: later)
      | _, _ => none

end

end Values

inductive Selector
  | name (key : String)
  | place (index : Nat)
deriving DecidableEq, Repr

def Value.select : Value → Selector → Option Value
  | .object fields, .name key => fields.lookup key
  | .list items, .place index => items[index]?
  | _, _ => none

def Value.locate : List Selector → Value → Option Value
  | [], value => some value
  | selector :: rest, value => (value.select selector).bind (Value.locate rest)

theorem Value.locate_append (first second : List Selector) (value : Value) :
    value.locate (first ++ second) = (value.locate first).bind (Value.locate second) := by
  induction first generalizing value with
  | nil => rfl
  | cons selector rest ih =>
      rw [List.cons_append, Value.locate, Value.locate]
      cases value.select selector with
      | none => rfl
      | some inner => exact ih inner

variable {convert : String → Option String}

theorem decodeItems_get {items decoded : List Value} (passed : decodeItems convert items = some decoded)
    {index : Nat} {value : Value} (held : items[index]? = some value) :
    ∃ after, decodeValue convert value = some after ∧ decoded[index]? = some after := by
  induction items generalizing decoded index with
  | nil =>
      rw [List.getElem?_nil] at held
      cases held
  | cons item rest ih =>
      unfold decodeItems at passed
      split at passed
      · rename_i first later firstPassed laterPassed
        cases passed
        cases index with
        | zero =>
            cases held
            exact ⟨first, firstPassed, rfl⟩
        | succ index => exact ih laterPassed held
      · cases passed

theorem decodeFields_lookup {fields decoded : Data} (passed : decodeFields convert fields = some decoded)
    {key : String} {value : Value} (held : fields.lookup key = some value) :
    ∃ after, decodeValue convert value = some after ∧ decoded.lookup key = some after := by
  induction fields generalizing decoded with
  | nil => cases held
  | cons field rest ih =>
      obtain ⟨own, inner⟩ := field
      unfold decodeFields at passed
      split at passed
      · rename_i first later firstPassed laterPassed
        cases passed
        rw [List.lookup_cons] at held ⊢
        split at held
        · cases held
          exact ⟨first, firstPassed, rfl⟩
        · exact ih laterPassed held
      · cases passed

private theorem decodeValue_select {value decoded inner : Value} {selector : Selector}
    (passed : decodeValue convert value = some decoded) (held : value.select selector = some inner) :
    ∃ after, decodeValue convert inner = some after ∧ decoded.select selector = some after := by
  cases value with
  | object fields =>
      obtain ⟨later, fieldsPassed, rfl⟩ := Option.map_eq_some_iff.mp passed
      cases selector with
      | name key => exact decodeFields_lookup fieldsPassed held
      | place index => cases held
  | list items =>
      obtain ⟨later, itemsPassed, rfl⟩ := Option.map_eq_some_iff.mp passed
      cases selector with
      | name key => cases held
      | place index => exact decodeItems_get itemsPassed held
  | null => cases held
  | bool value => cases held
  | number text => cases held
  | text value => cases held

private theorem decodeValue_locate {path : List Selector} {value decoded inner : Value}
    (passed : decodeValue convert value = some decoded) (held : value.locate path = some inner) :
    ∃ after, decodeValue convert inner = some after ∧ decoded.locate path = some after := by
  induction path generalizing value decoded with
  | nil =>
      cases held
      exact ⟨decoded, passed, rfl⟩
  | cons selector rest ih =>
      obtain ⟨first, selected, inside⟩ := Option.bind_eq_some_iff.mp held
      obtain ⟨after, firstPassed, afterSelected⟩ := decodeValue_select passed selected
      obtain ⟨last, innerPassed, located⟩ := ih firstPassed inside
      refine ⟨last, innerPassed, ?_⟩
      rw [Value.locate, afterSelected]
      exact located

theorem decodeValue_number {path : List Selector} {value decoded : Value} {literal : String}
    (passed : decodeValue convert value = some decoded)
    (held : value.locate path = some (.number literal)) :
    ∃ text, convert literal = some text ∧ decoded.locate path = some (.number text) := by
  obtain ⟨after, numberPassed, located⟩ := decodeValue_locate passed held
  obtain ⟨text, converted, rfl⟩ := Option.map_eq_some_iff.mp numberPassed
  exact ⟨text, converted, located⟩

/-! ### The decoder -/

variable {Content : Type}

/-- The connector's decoder over a parser that leaves the numbers as they are written.
`outOfRange` is the text of the error that names the number. -/
def JsonDecoder.intoAny (convert : String → Option String) (outOfRange : Data → String)
    (parser : JsonDecoder Content) : JsonDecoder Content :=
  { parser with
    decode := fun content =>
      match parser.decode content with
      | .value fields rest =>
          match decodeFields convert fields with
          | some data => .value data rest
          | none => .failed (outOfRange fields)
      | .eof rest => .eof rest
      | .failed message => .failed message }

end MigrationPlatform.Connectors
