/-
The JSON object in the output of a language model.

`extract_json` parses the trimmed output and, where this is no JSON, what stands
from the first opening brace through the last closing one. The two braces are
searched for independently: where the last closing brace stands well before the
first opening one the slice panics.
-/

import MigrationPlatform.Batch.Manifest
import MigrationPlatform.Foundation.ByteOffsets
import MigrationPlatform.Foundation.JsonText
import MigrationPlatform.Foundation.Trimming
import MigrationPlatform.Foundation.Utf8

namespace MigrationPlatform.Suggest

open ByteOffsets
open Batch (isSpaceRune trimRunes)

section Extraction

-- `fromStr` is `serde_json::from_str`.
variable {Value : Type} (fromStr : List Char → Option Value)

def extractJson (content : List Char) : Except SlicePanic (Option Value) :=
  let trimmed := trimRunes content
  match fromStr trimmed with
  | some value => .ok (some value)
  | none =>
      match find '{' trimmed with
      | none => .ok none
      | some start =>
          match rfind '}' trimmed with
          | none => .ok none
          | some last =>
              match slice trimmed start (last + 1) with
              | .error panic => .error panic
              | .ok text => .ok (fromStr text)

/-- The text of a JSON object, from its opening brace through its closing one. -/
structure IsObjectText (object : List Char) : Prop where
  accepted : JsonText.accepts none (Utf8.encode object) = true
  opens : object.head? = some '{'
  closes : object.getLast? = some '}'

structure Encloses (front object back content : List Char) : Prop where
  parts : content = front ++ object ++ back
  object : IsObjectText object
  front : '{' ∉ front ∧ '}' ∉ front
  back : '{' ∉ back ∧ '}' ∉ back

/-- No panic, and an enclosed object is what is returned, unless the whole is JSON. -/
structure Extracts (content : List Char) : Prop where
  total : ∃ result, extractJson fromStr content = .ok result
  finds : ∀ front object back, Encloses front object back content → fromStr content = none →
    ∃ value, fromStr object = some value ∧ extractJson fromStr content = .ok (some value)

/-- The first opening brace stands before the last closing one or right behind it. -/
def InOrder (text : List Char) : Prop :=
  ∀ start last, find '{' text = some start → rfind '}' text = some last → start ≤ last + 1

/-- The braces stand in order, and `serde_json` reads the enclosed object and
nothing else in the trimmed output. -/
structure Extractable (content : List Char) : Prop where
  order : fromStr (trimRunes content) ≠ none ∨ InOrder (trimRunes content)
  readable : ∀ front object back, Encloses front object back content → fromStr content = none →
    fromStr object ≠ none ∧
      (fromStr (trimRunes content) = none ∨ fromStr (trimRunes content) = fromStr object)

variable {fromStr}
variable {content front object back : List Char}

theorem extractJson_total_iff :
    (∃ result, extractJson fromStr content = .ok result) ↔
      fromStr (trimRunes content) ≠ none ∨ InOrder (trimRunes content) := by
  unfold extractJson
  dsimp only
  cases parsed : fromStr (trimRunes content) with
  | some value => exact iff_of_true ⟨_, rfl⟩ (.inl (Option.some_ne_none value))
  | none =>
      rw [or_iff_right (fun different => different rfl)]
      unfold InOrder
      cases found : find '{' (trimRunes content) with
      | none => exact iff_of_true ⟨_, rfl⟩ (fun start last impossible => by cases impossible)
      | some start =>
          cases rfound : rfind '}' (trimRunes content) with
          | none => exact iff_of_true ⟨_, rfl⟩ (fun start last _ impossible => by cases impossible)
          | some last =>
              have sliced := slice_found_iff (by decide) found rfound
              have order : (∀ first final, some start = some first → some last = some final →
                  first ≤ final + 1) ↔ start ≤ last + 1 := by
                constructor
                · intro every
                  exact every start last rfl rfl
                · intro order first final same rsame
                  cases same
                  cases rsame
                  exact order
              rw [order, ← sliced]
              dsimp only
              cases slice (trimRunes content) start (last + 1) with
              | error panic =>
                  constructor
                  · rintro ⟨result, impossible⟩
                    cases impossible
                  · rintro ⟨middle, impossible⟩
                    cases impossible
              | ok text => exact iff_of_true ⟨_, rfl⟩ ⟨_, rfl⟩

theorem IsObjectText.exists_opens (text : IsObjectText object) :
    ∃ inner, object = '{' :: inner :=
  List.head?_eq_some_iff.mp text.opens

theorem IsObjectText.exists_closes (text : IsObjectText object) :
    ∃ inner, object = inner ++ ['}'] :=
  List.getLast?_eq_some_iff.mp text.closes

theorem trimRunes_enclosed (encloses : Encloses front object back content) :
    ∃ lead trail, trimRunes content = lead ++ object ++ trail ∧
      (∀ c ∈ lead, c ∈ front) ∧ ∀ c ∈ trail, c ∈ back := by
  have opens : isSpaceRune '{' = false := by decide
  have closes : isSpaceRune '}' = false := by decide
  have left : (front ++ object ++ back).dropWhile isSpaceRune =
      front.dropWhile isSpaceRune ++ (object ++ back) := by
    obtain ⟨inner, shape⟩ := encloses.object.exists_opens
    rw [List.append_assoc, List.dropWhile_append]
    split
    · rename_i empty
      rw [List.isEmpty_iff.mp empty, shape, List.cons_append, List.dropWhile_cons, opens]
      rfl
    · rfl
  have right : (front.dropWhile isSpaceRune ++ (object ++ back)).reverse.dropWhile isSpaceRune =
      back.reverse.dropWhile isSpaceRune ++
        (front.dropWhile isSpaceRune ++ object).reverse := by
    obtain ⟨inner, shape⟩ := encloses.object.exists_closes
    rw [← List.append_assoc, List.reverse_append, List.dropWhile_append]
    split
    · rename_i empty
      rw [List.isEmpty_iff.mp empty, shape, ← List.append_assoc, List.reverse_append]
      exact List.dropWhile_cons_of_neg (by rw [closes]; exact Bool.false_ne_true)
    · rfl
  refine ⟨front.dropWhile isSpaceRune, (back.reverse.dropWhile isSpaceRune).reverse, ?_, ?_, ?_⟩
  · unfold trimRunes
    rw [encloses.parts, left, right, List.reverse_append, List.reverse_reverse]
  · exact fun c member => (List.dropWhile_sublist isSpaceRune).mem member
  · intro c member
    have inside := (List.dropWhile_sublist isSpaceRune).mem (List.mem_reverse.mp member)
    exact List.mem_reverse.mp inside

private theorem extractJson_enclosed (encloses : Encloses front object back content)
    (unparsed : fromStr (trimRunes content) = none) :
    extractJson fromStr content = .ok (fromStr object) := by
  obtain ⟨lead, trail, trimmed, fromFront, fromBack⟩ := trimRunes_enclosed encloses
  have found : find '{' (trimRunes content) = some (size lead) := by
    obtain ⟨inner, shape⟩ := encloses.object.exists_opens
    rw [trimmed, shape, List.append_assoc, List.cons_append]
    exact find_append (fun member => encloses.front.1 (fromFront _ member)) _
  have rfound : ∃ last, rfind '}' (trimRunes content) = some last ∧
      last + 1 = size lead + size object := by
    obtain ⟨inner, shape⟩ := encloses.object.exists_closes
    refine ⟨size (lead ++ inner), ?_, ?_⟩
    · rw [trimmed, shape, ← List.append_assoc, List.append_assoc (lead ++ inner)]
      exact rfind_append _ (fun member => encloses.back.2 (fromBack _ member))
    · rw [shape, size_append, size_append]
      rfl
  obtain ⟨last, rfound, stops⟩ := rfound
  unfold extractJson
  dsimp only
  rw [unparsed, found, rfound]
  dsimp only
  rw [stops, trimmed, slice_size]

theorem extracts_iff (fromStr : List Char → Option Value) (content : List Char) :
    Extracts fromStr content ↔ Extractable fromStr content := by
  constructor
  · intro extracts
    refine ⟨extractJson_total_iff.mp extracts.total, ?_⟩
    intro front object back encloses whole
    obtain ⟨value, parsed, returned⟩ := extracts.finds front object back encloses whole
    refine ⟨by rw [parsed]; exact Option.some_ne_none value, ?_⟩
    cases trimmed : fromStr (trimRunes content) with
    | none => exact .inl rfl
    | some other =>
        unfold extractJson at returned
        dsimp only at returned
        rw [trimmed] at returned
        cases returned
        exact .inr parsed.symm
  · intro extractable
    refine ⟨extractJson_total_iff.mpr extractable.order, ?_⟩
    intro front object back encloses whole
    obtain ⟨readable, unparsed | same⟩ := extractable.readable front object back encloses whole
    · obtain ⟨value, parsed⟩ := Option.ne_none_iff_exists'.mp readable
      refine ⟨value, parsed, ?_⟩
      rw [extractJson_enclosed encloses unparsed, parsed]
    · obtain ⟨value, parsed⟩ := Option.ne_none_iff_exists'.mp readable
      refine ⟨value, parsed, ?_⟩
      unfold extractJson
      dsimp only
      rw [same, parsed]

end Extraction

/-! ### Braces in the wrong order -/

def emptyObject (text : List Char) : Option Unit := if text = ['{', '}'] then some () else none

def reversedBraces : List Char := ['}', ' ', '{']

theorem reversedBraces_panic :
    extractJson emptyObject reversedBraces = .error .outOfOrder ∧
      ¬Extracts emptyObject reversedBraces := by
  have panics : extractJson emptyObject reversedBraces = .error .outOfOrder := by decide
  refine ⟨panics, fun extracts => ?_⟩
  obtain ⟨result, returned⟩ := extracts.total
  rw [panics] at returned
  cases returned

end MigrationPlatform.Suggest
