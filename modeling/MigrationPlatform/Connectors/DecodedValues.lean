/-
Values and what decoding makes of them.

Decoding into `any` changes nothing but the numbers, and a number only where it is
not the decimal that is written for its `float64`. What a value means is the value
with each number as a rational, however it is written.
-/

import MigrationPlatform.Connectors.JsonNumbers
import MigrationPlatform.Foundation.NumberValue

namespace MigrationPlatform.Connectors

open NumberText

inductive Meaning
  | null
  | bool (value : Bool)
  | number (value : Option ℚ)
  | text (value : String)
  | list (items : List Meaning)
  | object (fields : List (String × Meaning))

mutual

def meaning : Value → Meaning
  | .null => .null
  | .bool value => .bool value
  | .number literal => .number (value? literal.toList)
  | .text value => .text value
  | .list items => .list (meaningItems items)
  | .object fields => .object (meaningFields fields)

def meaningItems : List Value → List Meaning
  | [] => []
  | item :: rest => meaning item :: meaningItems rest

def meaningFields : List (String × Value) → List (String × Meaning)
  | [] => []
  | (key, value) :: rest => (key, meaning value) :: meaningFields rest

end

theorem Value.induction {motive : Value → Prop} (null : motive .null)
    (bool : ∀ value, motive (.bool value)) (number : ∀ text, motive (.number text))
    (text : ∀ value, motive (.text value))
    (list : ∀ items, (∀ value ∈ items, motive value) → motive (.list items))
    (object : ∀ fields, (∀ entry ∈ fields, motive entry.2) → motive (.object fields))
    (value : Value) : motive value := by
  refine @Value.rec motive (fun items => ∀ value ∈ items, motive value)
    (fun fields => ∀ entry ∈ fields, motive entry.2) (fun entry => motive entry.2)
    null bool number text list object ?_ ?_ ?_ ?_ ?_ value
  · intro value impossible
    cases impossible
  · intro head tail first rest value member
    rcases List.mem_cons.mp member with same | later
    · rw [same]
      exact first
    · exact rest value later
  · intro entry impossible
    cases impossible
  · intro head tail first rest entry member
    rcases List.mem_cons.mp member with same | later
    · rw [same]
      exact first
    · exact rest entry later
  · intro key value holds
    exact holds

section Survival

variable (convert : String → Option String)

/-- The number is written back as the same one. -/
def NumberSurvives (literal : String) : Prop :=
  ∀ text, convert literal = some text → value? text.toList = value? literal.toList

mutual

def Survives : Value → Prop
  | .number literal => NumberSurvives convert literal
  | .list items => ItemsSurvive items
  | .object fields => FieldsSurvive fields
  | .null => True
  | .bool _ => True
  | .text _ => True

def ItemsSurvive : List Value → Prop
  | [] => True
  | item :: rest => Survives item ∧ ItemsSurvive rest

def FieldsSurvive : List (String × Value) → Prop
  | [] => True
  | (_, value) :: rest => Survives value ∧ FieldsSurvive rest

end

end Survival

section Decoding

variable {convert : String → Option String}

mutual

theorem meaning_decoded : ∀ {value decoded : Value}, decodeValue convert value = some decoded →
    (meaning decoded = meaning value ↔ Survives convert value)
  | .null, _, passed => by
      cases passed
      exact iff_of_true rfl trivial
  | .bool _, _, passed => by
      cases passed
      exact iff_of_true rfl trivial
  | .text _, _, passed => by
      cases passed
      exact iff_of_true rfl trivial
  | .number literal, _, passed => by
      obtain ⟨text, converted, rfl⟩ := Option.map_eq_some_iff.mp passed
      simp only [meaning, Survives, NumberSurvives, converted, Meaning.number.injEq]
      constructor
      · intro same other found
        rw [← Option.some.inj found]
        exact same
      · intro survives
        exact survives text rfl
  | .list items, _, passed => by
      obtain ⟨later, itemsPassed, rfl⟩ := Option.map_eq_some_iff.mp passed
      simp only [meaning, Survives, Meaning.list.injEq]
      exact meaningItems_decoded itemsPassed
  | .object fields, _, passed => by
      obtain ⟨later, fieldsPassed, rfl⟩ := Option.map_eq_some_iff.mp passed
      simp only [meaning, Survives, Meaning.object.injEq]
      exact meaningFields_decoded fieldsPassed

theorem meaningItems_decoded : ∀ {items decoded : List Value},
    decodeItems convert items = some decoded →
    (meaningItems decoded = meaningItems items ↔ ItemsSurvive convert items)
  | [], _, passed => by
      cases passed
      exact iff_of_true rfl trivial
  | item :: rest, _, passed => by
      unfold decodeItems at passed
      split at passed
      · rename_i first later firstPassed laterPassed
        cases passed
        rw [meaningItems, meaningItems, ItemsSurvive, List.cons.injEq, meaning_decoded firstPassed,
          meaningItems_decoded laterPassed]
      · cases passed

theorem meaningFields_decoded : ∀ {fields decoded : Data},
    decodeFields convert fields = some decoded →
    (meaningFields decoded = meaningFields fields ↔ FieldsSurvive convert fields)
  | [], _, passed => by
      cases passed
      exact iff_of_true rfl trivial
  | (key, value) :: rest, _, passed => by
      unfold decodeFields at passed
      split at passed
      · rename_i first later firstPassed laterPassed
        cases passed
        rw [meaningFields, meaningFields, FieldsSurvive, List.cons.injEq, Prod.mk.injEq,
          meaning_decoded firstPassed, meaningFields_decoded laterPassed]
        exact and_congr_left (fun _ => and_iff_right rfl)
      · cases passed

end

theorem decodeFields_keys {fields decoded : Data} (passed : decodeFields convert fields = some decoded) :
    decoded.map Prod.fst = fields.map Prod.fst := by
  induction fields generalizing decoded with
  | nil =>
      cases passed
      rfl
  | cons field rest ih =>
      obtain ⟨key, value⟩ := field
      unfold decodeFields at passed
      split at passed
      · rename_i first later firstPassed laterPassed
        cases passed
        rw [List.map_cons, List.map_cons, ih laterPassed]
      · cases passed

/-- Without a change of numbers nothing changes. -/
theorem decodeValue_some (value : Value) : decodeValue some value = some value := by
  have each : ∀ items : List Value, (∀ item ∈ items, decodeValue some item = some item) →
      decodeItems some items = some items := by
    intro items
    induction items with
    | nil => exact fun _ => rfl
    | cons item rest ih =>
        intro same
        rw [decodeItems, same item List.mem_cons_self,
          ih (fun other member => same other (List.mem_cons_of_mem _ member))]
  have eachField : ∀ fields : Data, (∀ field ∈ fields, decodeValue some field.2 = some field.2) →
      decodeFields some fields = some fields := by
    intro fields
    induction fields with
    | nil => exact fun _ => rfl
    | cons field rest ih =>
        intro same
        rw [decodeFields, same field List.mem_cons_self,
          ih (fun other member => same other (List.mem_cons_of_mem _ member))]
  induction value using Value.induction with
  | null => rfl
  | bool value => rfl
  | number text => rfl
  | text value => rfl
  | list items ih => rw [decodeValue, each items ih, Option.map_some]
  | object fields ih => rw [decodeValue, eachField fields ih, Option.map_some]

theorem decodeFields_items (fields : Data) :
    (decodeFields convert fields).map (List.map Prod.snd) =
      decodeItems convert (fields.map Prod.snd) := by
  induction fields with
  | nil => rfl
  | cons field rest ih =>
      obtain ⟨key, value⟩ := field
      rw [List.map_cons, decodeFields, decodeItems, ← ih]
      cases decodeValue convert value with
      | none => rfl
      | some first => cases decodeFields convert rest <;> rfl

theorem decodeItems_eq_none {items : List Value} :
    decodeItems convert items = none ↔ ∃ item ∈ items, decodeValue convert item = none := by
  induction items with
  | nil => simp [decodeItems]
  | cons item rest ih =>
      rw [decodeItems, List.exists_mem_cons_iff, ← ih]
      cases decodeValue convert item with
      | none => simp
      | some first => cases decodeItems convert rest <;> simp

theorem text_of_meaning {value : Value} {text : String} (same : meaning value = .text text) :
    value = .text text := by
  cases value with
  | text own =>
      cases same
      rfl
  | null => cases same
  | bool own => cases same
  | number literal => cases same
  | list items => cases same
  | object fields => cases same

end Decoding

/-- A whole number survives where it is the shortest decimal of its own `float64`. -/
theorem numberSurvives_iff (fraction : String → Option String) {literal : String} {negative : Bool}
    {magnitude : Nat} (whole : wholeNumber? literal.toList = some (negative, magnitude))
    (finite : float64 magnitude < float64Limit) :
    NumberSurvives (convertNumber fraction) literal ↔ Exact magnitude := by
  have converted : convertNumber fraction literal =
      some (floatEncoder negative (float64 magnitude)) := by
    unfold convertNumber
    rw [whole]
    dsimp only
    rw [if_pos finite]
  have written := value_of_wholeNumber (wholeNumber_encoded negative (float64 magnitude))
  have read := value_of_wholeNumber whole
  rw [← shortestDigits_eq_iff]
  unfold NumberSurvives
  rw [converted]
  constructor
  · intro survives
    have same := Option.some.inj (written.symm.trans ((survives _ rfl).trans read))
    cases negative with
    | true => exact Nat.cast_injective (neg_injective same)
    | false => exact Nat.cast_injective same
  · intro same text found
    rw [← Option.some.inj found, written, read, same]

end MigrationPlatform.Connectors
