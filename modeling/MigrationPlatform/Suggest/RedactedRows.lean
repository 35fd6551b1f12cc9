/-
The sample rows of a mapping suggestion, as `build_prompt` writes them.

`redact_value` goes through lists and objects and redacts the strings in them; the
names of fields and the numbers stay as they are. What is promised of the rows is that
they show nothing but the masks, and that a second redaction changes nothing.
-/

import MigrationPlatform.Connectors.Ingest
import MigrationPlatform.Suggest.QuietMarks

namespace MigrationPlatform.Suggest

open Connectors (Value)
open Patterns

section Rows

variable (classes : Classes)

mutual

def redactValue : Value → Value
  | .null => .null
  | .bool value => .bool value
  | .number text => .number text
  | .text value => .text (String.ofList (redactText classes value.toList))
  | .list items => .list (redactItems items)
  | .object fields => .object (redactFields fields)

def redactItems : List Value → List Value
  | [] => []
  | item :: rest => redactValue item :: redactItems rest

def redactFields : List (String × Value) → List (String × Value)
  | [] => []
  | (key, value) :: rest => (key, redactValue value) :: redactFields rest

end

def maxSampleRows : Nat := 20

def promptRows (redactPii : Bool) (rows : List Value) : List Value :=
  if redactPii then redactItems classes (rows.take maxSampleRows) else rows.take maxSampleRows

end Rows

def quoted (text : List Char) : List Char := '"' :: (escapeText text ++ ['"'])

def indent (depth : Nat) : List Char := List.replicate (2 * depth) ' '

mutual

def prettyValue : Nat → Value → List Char
  | _, .null => ['n', 'u', 'l', 'l']
  | _, .bool true => ['t', 'r', 'u', 'e']
  | _, .bool false => ['f', 'a', 'l', 's', 'e']
  | _, .number text => text.toList
  | _, .text value => quoted value.toList
  | _, .list [] => ['[', ']']
  | depth, .list (item :: rest) =>
      '[' :: (prettyItems (depth + 1) (item :: rest) ++ '\n' :: (indent depth ++ [']']))
  | _, .object [] => ['{', '}']
  | depth, .object (field :: rest) =>
      '{' :: (prettyFields (depth + 1) (field :: rest) ++ '\n' :: (indent depth ++ ['}']))

def prettyItems : Nat → List Value → List Char
  | _, [] => []
  | depth, [item] => '\n' :: (indent depth ++ prettyValue depth item)
  | depth, item :: next :: rest =>
      '\n' :: (indent depth ++ prettyValue depth item) ++ ',' :: prettyItems depth (next :: rest)

def prettyFields : Nat → List (String × Value) → List Char
  | _, [] => []
  | depth, [(key, value)] =>
      '\n' :: (indent depth ++ (quoted key.toList ++ ':' :: ' ' :: prettyValue depth value))
  | depth, (key, value) :: next :: rest =>
      '\n' :: (indent depth ++ (quoted key.toList ++ ':' :: ' ' :: prettyValue depth value)) ++
        ',' :: prettyFields depth (next :: rest)

end

def prettyRows (rows : List Value) : List Char := prettyValue 0 (.list rows)

/-- Nothing but the masks is shown, and a second redaction changes nothing. -/
structure RedactsAll (classes : Classes) (rows : List Value) : Prop where
  shows : Clean classes (prettyRows (promptRows classes true rows))
  stable : redactItems classes (promptRows classes true rows) = promptRows classes true rows

mutual

/-- The names of fields and the numbers are clean, and the strings have quiet marks. -/
def QuietValue (classes : Classes) : Value → Prop
  | .null => True
  | .bool _ => True
  | .number text => Clean classes text.toList
  | .text value => Quiet classes (marksOf classes value.toList)
  | .list items => QuietItems classes items
  | .object fields => QuietFields classes fields

def QuietItems (classes : Classes) : List Value → Prop
  | [] => True
  | item :: rest => QuietValue classes item ∧ QuietItems classes rest

def QuietFields (classes : Classes) : List (String × Value) → Prop
  | [] => True
  | (key, value) :: rest =>
      Clean classes (escapeText key.toList) ∧ QuietValue classes value ∧ QuietFields classes rest

end

variable {classes : Classes}

section Lines

variable {left right text : List Char} {c : Char}

theorem breaks_of_ascii (ascii : c.toNat < 128) (outside : isLocal c = false) (unsigned : c ≠ '@')
    (apart : (c.isAlphanum || c == '_') = false) : Breaks classes c :=
  ⟨outside, unsigned, not_word_of_ascii ascii apart⟩

theorem quote_breaks : Breaks classes '"' := breaks_of_ascii (by decide) rfl (by decide) rfl

theorem feed_breaks : Breaks classes '\n' := breaks_of_ascii (by decide) rfl (by decide) rfl

theorem comma_breaks : Breaks classes ',' := breaks_of_ascii (by decide) rfl (by decide) rfl

theorem blank_breaks : Breaks classes ' ' := breaks_of_ascii (by decide) rfl (by decide) rfl

theorem clean_nil : Clean classes [] := by
  constructor
  · rw [mailsMasked_iff]
    intro left right split
    cases left <;> cases split
  · rw [runsMasked_nil]
    exact runMasked_short (by decide)

theorem clean_after (breaks : Breaks classes c) :
    Clean classes (c :: text) ↔ Clean classes text := by
  have split := @clean_break classes [] text c breaks
  rw [List.nil_append] at split
  rw [split]
  exact and_iff_right clean_nil

private theorem clean_before (breaks : Breaks classes c) :
    Clean classes (text ++ [c]) ↔ Clean classes text := by
  rw [clean_break breaks]
  exact and_iff_left clean_nil

theorem clean_indent (depth : Nat) : Clean classes (indent depth ++ text) ↔ Clean classes text := by
  unfold indent
  induction 2 * depth with
  | zero => rfl
  | succ n ih => rw [List.replicate_succ, List.cons_append, clean_after blank_breaks, ih]

theorem clean_quoted : Clean classes (quoted text) ↔ Clean classes (escapeText text) := by
  unfold quoted
  rw [clean_after quote_breaks, clean_before quote_breaks]

theorem clean_field {key value : List Char} (depth : Nat) :
    Clean classes ('\n' :: (indent depth ++ (quoted key ++ ':' :: ' ' :: value))) ↔
      Clean classes (escapeText key) ∧ Clean classes value := by
  rw [clean_after feed_breaks, clean_indent,
    clean_break (breaks_of_ascii (by decide) rfl (by decide) rfl), clean_quoted,
    clean_after blank_breaks]

theorem clean_letters (letters : text.all (fun d => d.isLower && !d.isDigit) = true) :
    Clean classes text := by
  have each : ∀ d ∈ text, d.isLower = true ∧ d.isDigit = false := by
    intro d member
    have both := List.all_eq_true.mp letters d member
    rw [Bool.and_eq_true, Bool.not_eq_true'] at both
    exact both
  constructor
  · rw [mailsMasked_iff]
    intro left right split
    have lower := (each '@' (by rw [split]; exact List.mem_append_right _ List.mem_cons_self)).1
    exact absurd lower (by decide)
  · refine runsMasked_plain (fun d member => ?_) (by decide)
    obtain ⟨lower, nondigit⟩ := each d member
    exact not_decimal_of_ascii (ascii_of_escape (by rw [lower, Bool.or_true])) nondigit

end Lines

mutual

theorem clean_prettyValue : ∀ (value : Value) (depth : Nat),
    Clean classes (prettyValue depth (redactValue classes value)) ↔ QuietValue classes value
  | .null, depth => by
      rw [redactValue, prettyValue, QuietValue]
      exact iff_of_true (clean_letters (by decide)) trivial
  | .bool true, depth => by
      rw [redactValue, prettyValue, QuietValue]
      exact iff_of_true (clean_letters (by decide)) trivial
  | .bool false, depth => by
      rw [redactValue, prettyValue, QuietValue]
      exact iff_of_true (clean_letters (by decide)) trivial
  | .number text, depth => by
      rw [redactValue, prettyValue, QuietValue]
  | .text value, depth => by
      rw [redactValue, prettyValue, QuietValue, clean_quoted, String.toList_ofList]
      exact clean_redactText_iff value.toList
  | .list [], depth => by
      rw [redactValue, redactItems, prettyValue, QuietValue, QuietItems]
      exact iff_of_true ((clean_after (breaks_of_ascii (by decide) rfl (by decide) rfl)).mpr
        ((clean_after (breaks_of_ascii (by decide) rfl (by decide) rfl)).mpr clean_nil)) trivial
  | .list (item :: rest), depth => by
      have items := clean_prettyItems (item :: rest) (depth + 1)
      rw [redactItems] at items
      rw [redactValue, redactItems, prettyValue, QuietValue,
        clean_after (breaks_of_ascii (by decide) rfl (by decide) rfl), clean_break feed_breaks,
        clean_indent, clean_after (breaks_of_ascii (by decide) rfl (by decide) rfl), items]
      exact and_iff_left clean_nil
  | .object [], depth => by
      rw [redactValue, redactFields, prettyValue, QuietValue, QuietFields]
      exact iff_of_true ((clean_after (breaks_of_ascii (by decide) rfl (by decide) rfl)).mpr
        ((clean_after (breaks_of_ascii (by decide) rfl (by decide) rfl)).mpr clean_nil)) trivial
  | .object ((key, value) :: rest), depth => by
      have fields := clean_prettyFields ((key, value) :: rest) (depth + 1)
      rw [redactFields] at fields
      rw [redactValue, redactFields, prettyValue, QuietValue,
        clean_after (breaks_of_ascii (by decide) rfl (by decide) rfl), clean_break feed_breaks,
        clean_indent, clean_after (breaks_of_ascii (by decide) rfl (by decide) rfl), fields]
      exact and_iff_left clean_nil

theorem clean_prettyItems : ∀ (items : List Value) (depth : Nat),
    Clean classes (prettyItems depth (redactItems classes items)) ↔ QuietItems classes items
  | [], depth => by
      rw [redactItems, prettyItems, QuietItems]
      exact iff_of_true clean_nil trivial
  | [item], depth => by
      have first := clean_prettyValue item depth
      rw [redactItems, redactItems, prettyItems, QuietItems, QuietItems, clean_after feed_breaks,
        clean_indent, first, and_true]
  | item :: next :: rest, depth => by
      have first := clean_prettyValue item depth
      have others := clean_prettyItems (next :: rest) depth
      rw [redactItems] at others
      rw [redactItems, redactItems, prettyItems, QuietItems, clean_break comma_breaks,
        clean_after feed_breaks, clean_indent, first, others]

theorem clean_prettyFields : ∀ (fields : List (String × Value)) (depth : Nat),
    Clean classes (prettyFields depth (redactFields classes fields)) ↔ QuietFields classes fields
  | [], depth => by
      rw [redactFields, prettyFields, QuietFields]
      exact iff_of_true clean_nil trivial
  | [(key, value)], depth => by
      have first := clean_prettyValue value depth
      rw [redactFields, redactFields, prettyFields, QuietFields, QuietFields, clean_field, first,
        and_true]
  | (key, value) :: next :: rest, depth => by
      have first := clean_prettyValue value depth
      have others := clean_prettyFields (next :: rest) depth
      obtain ⟨nextKey, nextValue⟩ := next
      rw [redactFields] at others
      rw [redactFields, redactFields, prettyFields, QuietFields, clean_break comma_breaks,
        clean_field, first, others, and_assoc]

end

mutual

theorem redactValue_twice : ∀ value : Value, QuietValue classes value →
    redactValue classes (redactValue classes value) = redactValue classes value
  | .null, _ => by rw [redactValue, redactValue]
  | .bool value, _ => by rw [redactValue, redactValue]
  | .number text, _ => by rw [redactValue, redactValue]
  | .text value, quiet => by
      rw [QuietValue] at quiet
      rw [redactValue, redactValue, String.toList_ofList,
        redactText_stable ((clean_redactText_iff value.toList).mpr quiet)]
  | .list items, quiet => by
      rw [QuietValue] at quiet
      rw [redactValue, redactValue, redactItems_twice items quiet]
  | .object fields, quiet => by
      rw [QuietValue] at quiet
      rw [redactValue, redactValue, redactFields_twice fields quiet]

theorem redactItems_twice : ∀ items : List Value, QuietItems classes items →
    redactItems classes (redactItems classes items) = redactItems classes items
  | [], _ => by rw [redactItems, redactItems]
  | item :: rest, quiet => by
      rw [QuietItems] at quiet
      rw [redactItems, redactItems, redactValue_twice item quiet.1, redactItems_twice rest quiet.2]

theorem redactFields_twice : ∀ fields : List (String × Value), QuietFields classes fields →
    redactFields classes (redactFields classes fields) = redactFields classes fields
  | [], _ => by rw [redactFields, redactFields]
  | (key, value) :: rest, quiet => by
      rw [QuietFields] at quiet
      rw [redactFields, redactFields, redactValue_twice value quiet.2.1,
        redactFields_twice rest quiet.2.2]

end

/-! ### The rows of a prompt -/

/-- Redaction keeps its promise for the rows if what they hold is quiet. -/
theorem redactsAll_iff (classes : Classes) (rows : List Value) :
    RedactsAll classes rows ↔ QuietItems classes (rows.take maxSampleRows) := by
  have shown := @clean_prettyValue classes (.list (rows.take maxSampleRows)) 0
  rw [redactValue, QuietValue] at shown
  constructor
  · exact fun redacts => shown.mp redacts.shows
  · exact fun quiet => ⟨shown.mpr quiet, redactItems_twice _ quiet⟩

/-- Word characters and digits of ASCII, and what is folded to a letter. -/
def asciiClasses : Classes :=
  { isWord := fun c => c.isAlphanum || c == '_' || isFolded c
    isDecimal := Char.isDigit
    word_ascii := by
      intro c ascii
      have unfolded : isFolded c = false := by
        unfold isFolded
        rw [Bool.or_eq_false_iff, beq_eq_false_iff_ne, beq_eq_false_iff_ne]
        omega
      rw [unfolded, Bool.or_false]
    word_folded := by
      intro c folded
      rw [folded, Bool.or_true]
    decimal_ascii := fun _ _ => rfl
    decimal_word := by
      intro c digit
      unfold Char.isAlphanum
      rw [digit, Bool.or_true, Bool.true_or, Bool.true_or] }

def cardRows : List Value := [.object [("card", .number "4111111111111111")]]

def contactRows : List Value := [.object [("contact", .text "ann@x.co123456789")]]

/-- A number is shown as it is, and so is an address that only ends where a phone number
has been replaced. -/
theorem cardRows_shown :
    ¬RedactsAll asciiClasses cardRows ∧ ¬RedactsAll asciiClasses contactRows := by
  constructor
  · intro redacts
    have masked := redacts.shows.runs (some ' ', "4111111111111111".toList) (by decide) (by decide)
    rcases masked with zeros | ⟨signed, _⟩
    · exact absurd zeros (by decide)
    · exact absurd signed (by decide)
  · intro redacts
    have quiet := (clean_prettyValue (.list contactRows) 0).mp redacts.shows
    unfold contactRows at quiet
    rw [QuietValue, QuietItems, QuietValue, QuietFields, QuietValue] at quiet
    have clean := (clean_redactText_iff _).mpr quiet.1.2.1
    have printed : escapeText (redactText asciiClasses "ann@x.co123456789".toList) =
        "ann".toList ++ '@' :: "x.co+10000000000".toList := by decide
    have name : NameEnds asciiClasses "ann".toList "ann".toList :=
      ⟨[], rfl, by decide, List.all_eq_true.mp (by decide), by decide⟩
    have host : HostBegins asciiClasses "x.co+10000000000".toList "x.co".toList :=
      ⟨['x'], ['c', 'o'], "+10000000000".toList, by decide, by decide, by decide,
        List.all_eq_true.mp (by decide), by decide, List.all_eq_true.mp (by decide), by decide⟩
    have same := mailsMasked_iff.mp clean.mails _ _ printed _ _ name host
    exact absurd same.1 (by decide)

end MigrationPlatform.Suggest
