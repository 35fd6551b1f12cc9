/-
What the redaction makes of a string of the sample rows.

`redact_value` replaces e-mail addresses, then runs of digits, then phone numbers,
each pass on the result of the one before. The last pass takes every run of nine
digits, so that the second one makes no difference to the result. It is written
down here as the marks that the e-mail and the phone pattern leave in the string.
-/

import Mathlib.Data.List.DropRight
import MigrationPlatform.Batch.Manifest
import MigrationPlatform.Foundation.Patterns

namespace MigrationPlatform.Suggest

open Patterns
open Batch (isSpaceRune)

/-- The long s and the Kelvin sign, which are letters of ASCII in another case. -/
def isFolded (c : Char) : Bool := c.toNat == 0x17F || c.toNat == 0x212A

/-- What the `regex` crate takes for a word character and for a decimal digit. -/
structure Classes where
  isWord : Char → Bool
  isDecimal : Char → Bool
  word_ascii : ∀ c, c.toNat < 128 → isWord c = (c.isAlphanum || c == '_')
  word_folded : ∀ c, isFolded c = true → isWord c = true
  decimal_ascii : ∀ c, c.toNat < 128 → isDecimal c = c.isDigit
  decimal_word : ∀ c, isDecimal c = true → isWord c = true

def isLetter (c : Char) : Bool := c.isAlpha || isFolded c

/-- `[a-z0-9._%+-]` -/
def isLocal (c : Char) : Bool :=
  isLetter c || c.isDigit || c == '.' || c == '_' || c == '%' || c == '+' || c == '-'

/-- `[a-z0-9.-]` -/
def isDomain (c : Char) : Bool := isLetter c || c.isDigit || c == '.' || c == '-'

variable (classes : Classes)

/-- `[\d\s().-]` -/
def Classes.isPhone (c : Char) : Bool :=
  classes.isDecimal c || isSpaceRune c || c == '(' || c == ')' || c == '.' || c == '-'

def Classes.emailRe : Pattern Char :=
  [.boundary classes.isWord, .many 1 isLocal, .one (fun c => c == '@'), .many 1 isDomain,
    .one (fun c => c == '.'), .many 2 isLetter, .boundary classes.isWord]

/-- `PHONE_RE` without the sign in front. -/
def Classes.groupRe : Pattern Char :=
  [.one classes.isDecimal, .many 7 classes.isPhone, .one classes.isDecimal]

def Classes.phoneRe : Pattern Char := .maybe (fun c => c == '+') :: classes.groupRe

def Classes.longDigitsRe : Pattern Char :=
  [.boundary classes.isWord, .many 9 classes.isDecimal, .boundary classes.isWord]

def userMask : List Char := ['u', 's', 'e', 'r']

def hostMask : List Char := ['e', 'x', 'a', 'm', 'p', 'l', 'e', '.', 'c', 'o', 'm']

def emailMask : List Char := userMask ++ '@' :: hostMask

def longDigitsMask : List Char := List.replicate 9 '0'

def phoneDigits : List Char := '1' :: List.replicate 10 '0'

def phoneMask : List Char := '+' :: phoneDigits

example : [emailMask, longDigitsMask, phoneMask] =
    ["user@example.com", "000000000", "+10000000000"].map String.toList := by decide

def redactText (text : List Char) : List Char :=
  replaceAll classes.phoneRe phoneMask
    (replaceAll classes.longDigitsRe longDigitsMask (replaceAll classes.emailRe emailMask text))

/-- What stands in a string: a character, an e-mail match or a phone match. -/
inductive Mark
  | char (c : Char)
  | mail
  | phone
deriving DecidableEq, Repr

def Mark.raw : Mark → List Char
  | .char c => [c]
  | .mail => emailMask
  | .phone => phoneMask

def rawText (marks : List Mark) : List Char := marks.flatMap Mark.raw

def Mark.ofPiece : Piece Char → Mark
  | .single c => .char c
  | .hit _ => .phone

def phoneMarks (gap : List Char) : List Mark := (pieces classes.phoneRe gap).map Mark.ofPiece

/-- `gap` is what stands behind the last e-mail match. -/
def marksFrom : List Char → List (Piece Char) → List Mark
  | gap, [] => phoneMarks classes gap
  | gap, .single c :: rest => marksFrom (gap ++ [c]) rest
  | gap, .hit _ :: rest => phoneMarks classes gap ++ .mail :: marksFrom [] rest

def marksOf (text : List Char) : List Mark := marksFrom classes [] (pieces classes.emailRe text)

section ClassFacts

variable {classes} {c : Char}

theorem not_decimal_of_ascii (ascii : c.toNat < 128) (other : c.isDigit = false) :
    classes.isDecimal c = false := by
  rw [classes.decimal_ascii c ascii, other]

theorem isPhone_of_decimal : ∀ c, classes.isDecimal c = true → classes.isPhone c = true := by
  intro c decimal
  unfold Classes.isPhone
  rw [decimal]
  rfl

private theorem not_decimal_of_not_phone (other : classes.isPhone c = false) :
    classes.isDecimal c = false := by
  cases decimal : classes.isDecimal c with
  | false => rfl
  | true =>
      rw [isPhone_of_decimal c decimal] at other
      cases other

theorem not_phone_plus : classes.isPhone '+' = false := by
  unfold Classes.isPhone
  rw [not_decimal_of_ascii (by decide) rfl]
  decide

theorem not_phone_u : classes.isPhone 'u' = false := by
  unfold Classes.isPhone
  rw [not_decimal_of_ascii (by decide) rfl]
  decide

end ClassFacts

section Groups

variable {classes} {before : Option Char} {group text : List Char}

structure IsGroup (classes : Classes) (group : List Char) : Prop where
  nonempty : group ≠ []
  inside : ∀ c ∈ group, classes.isPhone c = true
  first : ∀ c ∈ group.head?, classes.isDecimal c = true
  last : ∀ c ∈ group.getLast?, classes.isDecimal c = true

/-- What follows a group has no digit among the phone characters that it begins with. -/
abbrev StopsAt (classes : Classes) (text : List Char) : Prop :=
  Patterns.Stops classes.isPhone classes.isDecimal text

def NoDigit (classes : Classes) (text : List Char) : Prop :=
  ∀ c ∈ text.head?, classes.isDecimal c = false

theorem stops_nil : StopsAt classes [] := fun _ member => by cases member

theorem stops_cons_iff {c : Char} :
    StopsAt classes (c :: text) ↔
      (classes.isPhone c = true → classes.isDecimal c = false ∧ StopsAt classes text) := by
  unfold StopsAt Patterns.Stops
  rw [List.takeWhile_cons]
  by_cases phone : classes.isPhone c = true
  · rw [if_pos phone, List.forall_mem_cons]
    exact ⟨fun both _ => both, fun both => both phone⟩
  · rw [if_neg phone]
    exact iff_of_true (List.forall_mem_nil _) (fun impossible => absurd impossible phone)

theorem noDigit_of_stops (stops : StopsAt classes text) : NoDigit classes text := by
  intro c head
  cases text with
  | nil => cases head
  | cons item rest =>
      cases head
      cases phone : classes.isPhone c with
      | true => exact (stops_cons_iff.mp stops phone).1
      | false => exact not_decimal_of_not_phone phone

theorem IsGroup.not_noDigit (isGroup : IsGroup classes group) :
    ¬NoDigit classes (group ++ text) := by
  intro noDigit
  cases group with
  | nil => exact isGroup.nonempty rfl
  | cons d more =>
      have digit := isGroup.first d rfl
      rw [noDigit d rfl] at digit
      cases digit

theorem noDigit_of_ascii {c : Char} (ascii : c.toNat < 128) (nondigit : c.isDigit = false) :
    NoDigit classes (c :: text) := by
  intro d head
  cases head
  exact not_decimal_of_ascii ascii nondigit

theorem ends_groupRe_noDigit (other : NoDigit classes text) :
    ends classes.groupRe before text = [] := by
  unfold Classes.groupRe
  rw [ends]
  cases text with
  | nil => rfl
  | cons c rest =>
      rw [oneEnds, other c rfl]
      rfl

theorem head_ends_groupRe (isGroup : IsGroup classes group) (stops : StopsAt classes text) :
    (ends classes.groupRe before (group ++ text)).head? =
      if 9 ≤ group.length then some text else none := by
  cases group with
  | nil => exact absurd rfl isGroup.nonempty
  | cons d rest =>
      have decimal := isGroup.first d rfl
      unfold Classes.groupRe
      rw [List.cons_append, ends, oneEnds, if_pos decimal, ends]
      rcases List.eq_nil_or_concat rest with empty | ⟨front, last, ending⟩
      · rw [empty, List.nil_append, repeatEnds_of_stops isPhone_of_decimal stops]
        rfl
      · rw [List.concat_eq_append] at ending
        subst ending
        have digit : classes.isDecimal last = true := by
          apply isGroup.last
          rw [← List.cons_append, List.getLast?_concat]
          rfl
        have inside : ∀ c ∈ front, classes.isPhone c = true := fun c member =>
          isGroup.inside c (List.mem_cons_of_mem _ (List.mem_append_left _ member))
        rw [List.append_assoc, List.singleton_append,
          head_repeatEnds isPhone_of_decimal inside digit stops]
        have sizes : 7 ≤ front.length ↔ 9 ≤ (d :: (front ++ [last])).length := by
          rw [List.length_cons, List.length_append, List.length_singleton]
          omega
        by_cases long : 7 ≤ front.length
        · rw [if_pos long, if_pos (sizes.mp long)]
        · rw [if_neg long, if_neg (fun enough => long (sizes.mpr enough))]

theorem unmatched_other {c : Char} (other : classes.isDecimal c = false)
    (apart : c = '+' → NoDigit classes text) :
    matchLength classes.phoneRe before (c :: text) = none := by
  apply matchLength_of_none
  have unsigned : ends classes.groupRe before (c :: text) = [] :=
    ends_groupRe_noDigit (fun _ head => by cases head; exact other)
  unfold Classes.phoneRe
  rw [ends, unsigned, List.append_nil, oneEnds]
  by_cases plus : c = '+'
  · rw [if_pos (beq_iff_eq.mpr plus), ends_groupRe_noDigit (apart plus)]
    rfl
  · rw [if_neg (fun same => plus (beq_iff_eq.mp same))]
    rfl

theorem matchLength_group (isGroup : IsGroup classes group) (stops : StopsAt classes text) :
    matchLength classes.phoneRe before (group ++ text) =
      if 9 ≤ group.length then some group.length else none := by
  have signless : oneEnds (ends classes.groupRe) (fun c => c == '+') (group ++ text) = [] := by
    cases group with
    | nil => exact absurd rfl isGroup.nonempty
    | cons d rest =>
        have other : (d == '+') = false := by
          rw [beq_eq_false_iff_ne]
          intro same
          have phone := isGroup.inside d List.mem_cons_self
          rw [same, not_phone_plus] at phone
          cases phone
        rw [List.cons_append, oneEnds, other]
        rfl
  have head := @head_ends_groupRe classes before group text isGroup stops
  have whole : ends classes.phoneRe before (group ++ text) =
      ends classes.groupRe before (group ++ text) := by
    unfold Classes.phoneRe
    rw [ends, signless, List.nil_append]
  rw [← whole] at head
  by_cases long : 9 ≤ group.length
  · rw [if_pos long] at head ⊢
    exact matchLength_of_head isGroup.nonempty head
  · rw [if_neg long] at head ⊢
    exact matchLength_of_none head

theorem matchLength_signed (isGroup : IsGroup classes group) (stops : StopsAt classes text) :
    matchLength classes.phoneRe before ('+' :: group ++ text) =
      if 9 ≤ group.length then some (group.length + 1) else none := by
  have unsigned : ends classes.groupRe before ('+' :: (group ++ text)) = [] :=
    ends_groupRe_noDigit (noDigit_of_ascii (by decide) rfl)
  have head := @head_ends_groupRe classes (some '+') group text isGroup stops
  have whole : ends classes.phoneRe before ('+' :: group ++ text) =
      ends classes.groupRe (some '+') (group ++ text) := by
    unfold Classes.phoneRe
    rw [List.cons_append, ends, unsigned, List.append_nil, oneEnds, if_pos (beq_self_eq_true _)]
  rw [← whole] at head
  by_cases long : 9 ≤ group.length
  · rw [if_pos long] at head ⊢
    exact matchLength_of_head (List.cons_ne_nil _ _) head
  · rw [if_neg long] at head ⊢
    exact matchLength_of_none head

end Groups

/-! ### Reading a text -/

section Reading

variable {classes} {text : List Char} {marks : List Mark}

def sign (signed : Bool) : List Char := if signed then ['+'] else []

def charMarks (text : List Char) : List Mark := text.map Mark.char

/-- The marks that the phone pattern leaves in a text. An e-mail mask in the text
may be read as the mark that it stands for. -/
inductive Reads (classes : Classes) : List Char → List Mark → Prop
  | nil : Reads classes [] []
  | plain {c : Char} {text : List Char} {marks : List Mark}
      (other : classes.isDecimal c = false) (apart : c = '+' → NoDigit classes text)
      (later : Reads classes text marks) : Reads classes (c :: text) (.char c :: marks)
  | short {signed : Bool} {group text : List Char} {marks : List Mark}
      (isGroup : IsGroup classes group) (few : group.length < 9) (stops : StopsAt classes text)
      (later : Reads classes text marks) :
      Reads classes (sign signed ++ group ++ text) (charMarks (sign signed ++ group) ++ marks)
  | long {signed : Bool} {group text : List Char} {marks : List Mark}
      (isGroup : IsGroup classes group) (many : 9 ≤ group.length) (stops : StopsAt classes text)
      (later : Reads classes text marks) :
      Reads classes (sign signed ++ group ++ text) (.phone :: marks)
  | mail {text : List Char} {marks : List Mark} (later : Reads classes text marks) :
      Reads classes (emailMask ++ text) (.mail :: marks)

def Mark.expanded : Mark → List Mark
  | .mail => charMarks emailMask
  | other => [other]

theorem piecesFrom_short {group : List Char} (stops : StopsAt classes text)
    (inside : ∀ c ∈ group, classes.isPhone c = true)
    (last : ∀ c ∈ group.getLast?, classes.isDecimal c = true) (few : group.length < 9) :
    ∀ before, ∃ behind, piecesFrom classes.phoneRe 0 before (group ++ text) =
      group.map Piece.single ++ piecesFrom classes.phoneRe 0 behind text := by
  induction group with
  | nil => exact fun before => ⟨before, rfl⟩
  | cons c rest ih =>
      intro before
      obtain ⟨phone, others⟩ := List.forall_mem_cons.mp inside
      have unmatched : matchLength classes.phoneRe before (c :: (rest ++ text)) = none := by
        cases decimal : classes.isDecimal c with
        | true =>
            have isGroup : IsGroup classes (c :: rest) :=
              ⟨List.cons_ne_nil _ _, inside, fun _ head => by cases head; exact decimal, last⟩
            have found := @matchLength_group classes before _ _ isGroup stops
            rw [if_neg (Nat.not_le.mpr few)] at found
            exact found
        | false =>
            refine unmatched_other decimal (fun plus => ?_)
            rw [plus, not_phone_plus] at phone
            cases phone
      have lastRest : ∀ d ∈ rest.getLast?, classes.isDecimal d = true := by
        intro d member
        apply last
        rw [List.getLast?_cons, member]
        rfl
      rw [List.length_cons] at few
      obtain ⟨behind, pieces_⟩ := ih others lastRest (by omega) (some c)
      refine ⟨behind, ?_⟩
      rw [List.cons_append, piecesFrom_single unmatched, pieces_]
      rfl

private theorem piecesFrom_plain {front : List Char}
    (other : ∀ c ∈ front, classes.isDecimal c = false)
    (unsigned : '+' ∉ front) : ∀ before, ∃ behind,
      piecesFrom classes.phoneRe 0 before (front ++ text) =
        front.map Piece.single ++ piecesFrom classes.phoneRe 0 behind text := by
  induction front with
  | nil => exact fun before => ⟨before, rfl⟩
  | cons c rest ih =>
      intro before
      obtain ⟨first, others⟩ := List.forall_mem_cons.mp other
      have unmatched : matchLength classes.phoneRe before (c :: (rest ++ text)) = none :=
        unmatched_other first (fun plus => absurd (plus ▸ List.mem_cons_self) unsigned)
      obtain ⟨behind, pieces_⟩ := ih others (fun member => unsigned (.tail _ member)) (some c)
      refine ⟨behind, ?_⟩
      rw [List.cons_append, piecesFrom_single unmatched, pieces_]
      rfl

theorem emailMask_plain : ∀ c ∈ emailMask, classes.isDecimal c = false := by
  intro c member
  have ascii : emailMask.all (fun c => decide (c.toNat < 128) && !c.isDigit) = true := by decide
  have both := List.all_eq_true.mp ascii c member
  rw [Bool.and_eq_true, Bool.not_eq_true'] at both
  exact not_decimal_of_ascii (of_decide_eq_true both.1) both.2

theorem map_ofPiece_single (text : List Char) :
    (text.map Piece.single).map Mark.ofPiece = charMarks text := by
  rw [List.map_map]
  rfl

private theorem expanded_charMarks (text : List Char) :
    (charMarks text).flatMap Mark.expanded = charMarks text := by
  induction text with
  | nil => rfl
  | cons c rest ih =>
      unfold charMarks at ih ⊢
      rw [List.map_cons, List.flatMap_cons, ih]
      rfl

theorem pieces_of_reads (reads : Reads classes text marks) : ∀ before,
    (piecesFrom classes.phoneRe 0 before text).map Mark.ofPiece = marks.flatMap Mark.expanded := by
  induction reads with
  | nil => exact fun before => rfl
  | @plain c text marks other apart _later ih =>
      intro before
      rw [piecesFrom_single (unmatched_other other apart), List.map_cons, ih]
      rfl
  | @short signed group text marks isGroup few stops _later ih =>
      intro before
      have unsigned : ∀ before, (piecesFrom classes.phoneRe 0 before (group ++ text)).map
          Mark.ofPiece = charMarks group ++ marks.flatMap Mark.expanded := by
        intro before
        obtain ⟨behind, pieces_⟩ := piecesFrom_short stops isGroup.inside isGroup.last few before
        rw [pieces_, List.map_append, map_ofPiece_single, ih]
      rw [List.flatMap_append, expanded_charMarks]
      cases signed with
      | false => exact unsigned before
      | true =>
          have found := @matchLength_signed classes before _ _ isGroup stops
          rw [if_neg (Nat.not_le.mpr few), List.cons_append] at found
          change (piecesFrom classes.phoneRe 0 before ('+' :: (group ++ text))).map _ = _
          rw [piecesFrom_single found, List.map_cons, unsigned]
          rfl
  | @long signed group text marks isGroup many stops _later ih =>
      intro before
      cases signed with
      | false =>
          have found := @matchLength_group classes before _ _ isGroup stops
          rw [if_pos many] at found
          change (piecesFrom classes.phoneRe 0 before (group ++ text)).map _ = _
          rw [piecesFrom_hit isGroup.nonempty found, List.map_cons, ih]
          rfl
      | true =>
          have found := @matchLength_signed classes before _ _ isGroup stops
          rw [if_pos many] at found
          change (piecesFrom classes.phoneRe 0 before ('+' :: group ++ text)).map _ = _
          rw [piecesFrom_hit (List.cons_ne_nil _ _) found, List.map_cons, ih]
          rfl
  | @mail text marks _later ih =>
      intro before
      obtain ⟨behind, pieces_⟩ :=
        @piecesFrom_plain classes text emailMask emailMask_plain (by decide) before
      rw [pieces_, List.map_append, map_ofPiece_single, ih]
      rfl

theorem rawText_charMarks (text : List Char) : rawText (charMarks text) = text := by
  induction text with
  | nil => rfl
  | cons c rest ih =>
      unfold rawText charMarks at ih ⊢
      rw [List.map_cons, List.flatMap_cons, ih]
      rfl

private theorem rawText_expanded (marks : List Mark) :
    rawText (marks.flatMap Mark.expanded) = rawText marks := by
  unfold rawText
  rw [List.flatMap_assoc]
  congr 1
  funext mark
  cases mark with
  | mail => exact rawText_charMarks emailMask
  | char c => rfl
  | phone => rfl

private theorem replaced_eq_raw (found : List (Piece Char)) :
    found.flatMap (Piece.replaced phoneMask) = rawText (found.map Mark.ofPiece) := by
  unfold rawText
  rw [List.flatMap_map]
  congr 1
  funext piece
  cases piece <;> rfl

private theorem replacePhone_of_reads (reads : Reads classes text marks) :
    replaceAll classes.phoneRe phoneMask text = rawText marks := by
  unfold replaceAll pieces
  rw [replaced_eq_raw, pieces_of_reads reads, rawText_expanded]

end Reading

section LongDigits

variable {classes} {before : Option Char} {text middle rest : List Char} {marks : List Mark}

/-- The text behind `before` with its long runs of digits replaced. -/
def longFrom (classes : Classes) (before : Option Char) (text : List Char) : List Char :=
  (piecesFrom classes.longDigitsRe 0 before text).flatMap (Piece.replaced longDigitsMask)

theorem run_of_matches (matched : Matches classes.longDigitsRe before middle rest) :
    (∀ c ∈ middle, classes.isDecimal c = true) ∧ 9 ≤ middle.length ∧ NoDigit classes rest := by
  unfold Matches Classes.longDigitsRe at matched
  rw [ends] at matched
  split at matched
  · rw [ends] at matched
    obtain ⟨front, back, split, digits, many, inside⟩ := mem_repeatEnds.mp matched
    rw [ends] at inside
    split at inside
    · rename_i atEnd
      rw [ends, List.mem_singleton] at inside
      subst inside
      have same := List.append_cancel_right split
      subst same
      refine ⟨digits, many, ?_⟩
      intro c head
      obtain ⟨last, found⟩ := Option.ne_none_iff_exists'.mp
        (show middle.getLast? ≠ none by
          rw [ne_eq, List.getLast?_eq_none_iff]
          intro empty
          rw [empty] at many
          cases many)
      have word := classes.decimal_word last (digits last (List.mem_of_getLast? found))
      unfold isBoundary lastOr at atEnd
      rw [found, Option.mem_def.mp head] at atEnd
      cases decimal : classes.isDecimal c with
      | false => rfl
      | true =>
          simp [word, classes.decimal_word c decimal] at atEnd
    · cases inside
  · cases matched

theorem longFrom_plain {c : Char} (other : classes.isDecimal c = false) :
    longFrom classes before (c :: text) = c :: longFrom classes (some c) text := by
  have unmatched : matchLength classes.longDigitsRe before (c :: text) = none := by
    cases found : matchLength classes.longDigitsRe before (c :: text) with
    | none => rfl
    | some length =>
        obtain ⟨middle, rest, split, _, nonempty, matched⟩ := exists_of_matchLength found
        cases middle with
        | nil => exact absurd rfl nonempty
        | cons d more =>
            cases split
            rw [(run_of_matches matched).1 c List.mem_cons_self] at other
            cases other
  unfold longFrom
  rw [piecesFrom_single unmatched]
  rfl

private theorem longFrom_append {front : List Char}
    (other : ∀ c ∈ front, classes.isDecimal c = false) :
    ∀ before, ∃ behind, longFrom classes before (front ++ text) =
      front ++ longFrom classes behind text := by
  induction front with
  | nil => exact fun before => ⟨before, rfl⟩
  | cons c more ih =>
      intro before
      obtain ⟨first, others⟩ := List.forall_mem_cons.mp other
      obtain ⟨behind, same⟩ := ih others (some c)
      exact ⟨behind, by rw [List.cons_append, longFrom_plain first, same, List.cons_append]⟩

private theorem noDigit_longFrom (noDigit : NoDigit classes text) :
    NoDigit classes (longFrom classes before text) := by
  cases text with
  | nil => exact fun _ head => by cases head
  | cons c more =>
      have other := noDigit c rfl
      rw [longFrom_plain other]
      intro d head
      cases head
      exact other

theorem stops_longFrom : StopsAt classes text → ∀ before,
    StopsAt classes (longFrom classes before text) := by
  induction text with
  | nil => exact fun _ _ => stops_nil
  | cons c more ih =>
      intro stops before
      have other := noDigit_of_stops stops c rfl
      rw [longFrom_plain other, stops_cons_iff]
      intro phone
      exact ⟨other, ih (stops_cons_iff.mp stops phone).2 _⟩

structure Shrunk (classes : Classes) (front shorter : List Char) : Prop where
  same : shorter = front ∨ 9 ≤ front.length ∧ 9 ≤ shorter.length
  inside : ∀ c ∈ shorter, classes.isPhone c = true
  first : (∀ c ∈ front.head?, classes.isDecimal c = true) →
    ∀ c ∈ shorter.head?, classes.isDecimal c = true
  last : ∀ c ∈ shorter.getLast?, classes.isDecimal c = true

theorem longDigitsMask_digits : ∀ c ∈ longDigitsMask, classes.isDecimal c = true := by
  intro c member
  have zeros : longDigitsMask.all (fun c => c == '0') = true := by decide
  have zero := beq_iff_eq.mp (List.all_eq_true.mp zeros c member)
  rw [zero, classes.decimal_ascii '0' (by decide)]
  rfl

theorem Shrunk.refl {front : List Char} (inside : ∀ c ∈ front, classes.isPhone c = true)
    (last : ∀ c ∈ front.getLast?, classes.isDecimal c = true) : Shrunk classes front front :=
  ⟨.inl rfl, inside, fun digits => digits, last⟩

theorem Shrunk.cons {c : Char} {front shorter : List Char} (phone : classes.isPhone c = true)
    (last : ∀ d ∈ (c :: front).getLast?, classes.isDecimal d = true)
    (shrunk : Shrunk classes front shorter) : Shrunk classes (c :: front) (c :: shorter) := by
  refine ⟨?_, List.forall_mem_cons.mpr ⟨phone, shrunk.inside⟩, fun digits => digits, ?_⟩
  · rcases shrunk.same with equal | ⟨long, longer⟩
    · exact .inl (by rw [equal])
    · exact .inr ⟨Nat.le_succ_of_le long, Nat.le_succ_of_le longer⟩
  · intro d member
    cases ending : shorter.getLast? with
    | some e =>
        rw [List.getLast?_cons, ending] at member
        cases member
        exact shrunk.last _ ending
    | none =>
        rw [List.getLast?_eq_none_iff] at ending
        rcases shrunk.same with equal | ⟨_, longer⟩
        · apply last
          rw [← equal]
          exact member
        · rw [ending] at longer
          exact absurd longer (by decide)

theorem Shrunk.masked {run front shorter : List Char} (long : 9 ≤ run.length)
    (shrunk : Shrunk classes front shorter) :
    Shrunk classes (run ++ front) (longDigitsMask ++ shorter) := by
  refine ⟨.inr ⟨?_, ?_⟩, ?_, fun _ => ?_, ?_⟩
  · rw [List.length_append]
    omega
  · rw [List.length_append]
    exact Nat.le_add_right 9 _
  · rw [List.forall_mem_append]
    exact ⟨fun c member => isPhone_of_decimal c (longDigitsMask_digits c member), shrunk.inside⟩
  · intro c head
    exact longDigitsMask_digits c (List.mem_of_head? head)
  · intro c member
    rw [List.getLast?_append] at member
    cases ending : shorter.getLast? with
    | some e =>
        rw [ending] at member
        cases member
        exact shrunk.last _ ending
    | none =>
        rw [ending] at member
        exact longDigitsMask_digits c (List.mem_of_getLast? member)

private theorem run_in_front {run front rest : List Char} (noDigit : NoDigit classes text)
    (digits : ∀ c ∈ run, classes.isDecimal c = true) (split : front ++ text = run ++ rest) :
    ∃ left, front = run ++ left ∧ rest = left ++ text := by
  rcases List.append_eq_append_iff.mp split with ⟨more, same, others⟩ | ⟨left, same, others⟩
  · cases more with
    | nil =>
        rw [List.append_nil] at same
        exact ⟨[], by rw [same, List.append_nil], others.symm⟩
    | cons c more =>
        have digit : classes.isDecimal c = true := by
          apply digits
          rw [same]
          exact List.mem_append_right _ List.mem_cons_self
        rw [noDigit c (by rw [others]; rfl)] at digit
        cases digit
  · exact ⟨left, same, others⟩

theorem exists_shrunk (noDigit : NoDigit classes text) : ∀ size (front : List Char),
    front.length ≤ size → (∀ c ∈ front, classes.isPhone c = true) →
    (∀ c ∈ front.getLast?, classes.isDecimal c = true) → ∀ before, ∃ shorter behind,
      longFrom classes before (front ++ text) = shorter ++ longFrom classes behind text ∧
        Shrunk classes front shorter := by
  intro size
  induction size with
  | zero =>
      intro front short inside last before
      rw [List.eq_nil_of_length_eq_zero (Nat.le_zero.mp short)] at inside last ⊢
      exact ⟨[], before, rfl, .refl inside last⟩
  | succ size ih =>
      intro front short inside last before
      cases front with
      | nil => exact ⟨[], before, rfl, .refl inside last⟩
      | cons c more =>
          cases found : matchLength classes.longDigitsRe before (c :: more ++ text) with
          | none =>
              obtain ⟨phone, others⟩ := List.forall_mem_cons.mp inside
              have lastMore : ∀ d ∈ more.getLast?, classes.isDecimal d = true := by
                intro d member
                apply last
                rw [List.getLast?_cons, member]
                rfl
              obtain ⟨shorter, behind, same, shrunk⟩ :=
                ih more (Nat.le_of_succ_le_succ short) others lastMore (some c)
              refine ⟨c :: shorter, behind, ?_, shrunk.cons phone last⟩
              rw [List.cons_append] at found ⊢
              unfold longFrom at same ⊢
              rw [piecesFrom_single found, List.flatMap_cons, same]
              rfl
          | some length =>
              obtain ⟨run, rest, split, size', nonempty, matched⟩ := exists_of_matchLength found
              obtain ⟨digits, many, _⟩ := run_of_matches matched
              obtain ⟨left, same, others⟩ := run_in_front noDigit digits split
              rw [same] at short inside last
              have fewer : left.length ≤ size := by
                rw [List.length_append] at short
                omega
              have lastLeft : ∀ d ∈ left.getLast?, classes.isDecimal d = true := by
                intro d member
                apply last
                rw [List.getLast?_append, member]
                rfl
              obtain ⟨shorter, behind, replaced, shrunk⟩ := ih left fewer
                (fun d member => inside d (List.mem_append_right _ member)) lastLeft run.getLast?
              refine ⟨longDigitsMask ++ shorter, behind, ?_, ?_⟩
              · rw [split] at found ⊢
                unfold longFrom at replaced ⊢
                rw [piecesFrom_hit nonempty (by rw [found, size']), List.flatMap_cons, others,
                  replaced, List.append_assoc]
                rfl
              · rw [same]
                exact shrunk.masked many

theorem longFrom_group {group : List Char} (isGroup : IsGroup classes group)
    (noDigit : NoDigit classes text) (before : Option Char) : ∃ shorter behind,
      longFrom classes before (group ++ text) = shorter ++ longFrom classes behind text ∧
        Shrunk classes group shorter :=
  exists_shrunk noDigit group.length group (Nat.le_refl _) isGroup.inside isGroup.last before

theorem longFrom_signed {signed : Bool} {front : List Char} (before : Option Char) :
    ∃ behind, longFrom classes before (sign signed ++ front) =
      sign signed ++ longFrom classes behind front := by
  cases signed with
  | false => exact ⟨before, rfl⟩
  | true => exact ⟨some '+', longFrom_plain (not_decimal_of_ascii (by decide) rfl)⟩

theorem reads_longFrom (reads : Reads classes text marks) : ∀ before,
    Reads classes (longFrom classes before text) marks := by
  induction reads with
  | nil => exact fun _ => .nil
  | @plain c text marks other apart _later ih =>
      intro before
      rw [longFrom_plain other]
      exact .plain other (fun plus => noDigit_longFrom (apart plus)) (ih _)
  | @short signed group text marks isGroup few stops _later ih =>
      intro before
      rw [List.append_assoc]
      obtain ⟨behind, same⟩ := @longFrom_signed classes signed (group ++ text) before
      obtain ⟨shorter, last, replaced, shrunk⟩ :=
        longFrom_group isGroup (noDigit_of_stops stops) behind
      have kept : shorter = group := by
        rcases shrunk.same with equal | ⟨long, _⟩
        · exact equal
        · exact absurd long (Nat.not_le.mpr few)
      rw [same, replaced, kept, ← List.append_assoc]
      exact .short isGroup few (stops_longFrom stops _) (ih _)
  | @long signed group text marks isGroup many stops _later ih =>
      intro before
      rw [List.append_assoc]
      obtain ⟨behind, same⟩ := @longFrom_signed classes signed (group ++ text) before
      obtain ⟨shorter, last, replaced, shrunk⟩ :=
        longFrom_group isGroup (noDigit_of_stops stops) behind
      have still : 9 ≤ shorter.length := by
        rcases shrunk.same with equal | ⟨_, long⟩
        · rw [equal]
          exact many
        · exact long
      have isGroup' : IsGroup classes shorter :=
        ⟨List.length_pos_iff.mp (by omega), shrunk.inside, shrunk.first isGroup.first, shrunk.last⟩
      rw [same, replaced, ← List.append_assoc]
      exact .long isGroup' still (stops_longFrom stops _) (ih _)
  | @mail text marks _later ih =>
      intro before
      obtain ⟨behind, same⟩ :=
        @longFrom_append classes text emailMask emailMask_plain before
      rw [same]
      exact .mail (ih _)

end LongDigits

/-! ### Every text is read -/

section Marks

variable {classes} {gap text : List Char} {marks later : List Mark}

theorem stops_append_mask (stops : StopsAt classes gap) :
    StopsAt classes (gap ++ (emailMask ++ text)) := by
  induction gap with
  | nil =>
      change StopsAt classes ('u' :: _)
      rw [stops_cons_iff, not_phone_u]
      exact fun impossible => by cases impossible
  | cons c more ih =>
      rw [List.cons_append, stops_cons_iff]
      intro phone
      obtain ⟨other, stopsMore⟩ := stops_cons_iff.mp stops phone
      exact ⟨other, ih stopsMore⟩

private theorem noDigit_append_mask (noDigit : NoDigit classes gap) :
    NoDigit classes (gap ++ (emailMask ++ text)) := by
  cases gap with
  | nil => exact noDigit_of_ascii (by decide) rfl
  | cons d more => exact fun c head => noDigit c head

private theorem reads_append (reads : Reads classes gap marks) (others : Reads classes text later) :
    Reads classes (gap ++ (emailMask ++ text)) (marks ++ .mail :: later) := by
  induction reads with
  | nil => exact .mail others
  | plain other apart _later ih =>
      exact .plain other (fun plus => noDigit_append_mask (apart plus)) ih
  | @short signed group more marks isGroup few stops _later ih =>
      rw [List.append_assoc (_ ++ group), List.append_assoc (charMarks _)]
      exact .short isGroup few (stops_append_mask stops) ih
  | @long signed group more marks isGroup many stops _later ih =>
      rw [List.append_assoc (_ ++ group)]
      exact .long isGroup many (stops_append_mask stops) ih
  | @mail more marks _later ih =>
      rw [List.append_assoc emailMask]
      exact .mail ih

theorem exists_inside : ∀ text : List Char, ∃ group rest, text = group ++ rest ∧
    (∀ c ∈ group, classes.isPhone c = true) ∧
    (∀ c ∈ group.getLast?, classes.isDecimal c = true) ∧ StopsAt classes rest := by
  intro text
  induction text with
  | nil => exact ⟨[], [], rfl, List.forall_mem_nil _, fun _ member => (by cases member), stops_nil⟩
  | cons c more ih =>
      obtain ⟨group, rest, split, inside, last, stops⟩ := ih
      cases phone : classes.isPhone c with
      | false =>
          refine ⟨[], c :: more, rfl, List.forall_mem_nil _, fun _ member => (by cases member), ?_⟩
          rw [stops_cons_iff, phone]
          exact fun impossible => by cases impossible
      | true =>
          cases group with
          | nil =>
              cases decimal : classes.isDecimal c with
              | true =>
                  refine ⟨[c], rest, by rw [split]; rfl, ?_, ?_, stops⟩
                  · exact List.forall_mem_singleton.mpr phone
                  · exact fun d member => by cases member; exact decimal
              | false =>
                  refine ⟨[], c :: more, rfl, inside, last, stops_cons_iff.mpr fun _ => ?_⟩
                  rw [split]
                  exact ⟨decimal, stops⟩
          | cons d others =>
              refine ⟨c :: d :: others, rest, by rw [split]; rfl, ?_, ?_, stops⟩
              · exact List.forall_mem_cons.mpr ⟨phone, inside⟩
              · rw [List.getLast?_cons_cons]
                exact last

private theorem exists_group {d : Char} {more : List Char} (digit : classes.isDecimal d = true) :
    ∃ group rest, d :: more = group ++ rest ∧ IsGroup classes group ∧ StopsAt classes rest := by
  obtain ⟨group, rest, split, inside, last, stops⟩ := @exists_inside classes (d :: more)
  cases group with
  | nil =>
      rw [List.nil_append] at split
      have other := noDigit_of_stops stops d (by rw [← split]; rfl)
      rw [digit] at other
      cases other
  | cons first others =>
      obtain ⟨same, _⟩ := List.cons.inj split
      refine ⟨first :: others, rest, split, ⟨List.cons_ne_nil _ _, inside, ?_, last⟩, stops⟩
      exact fun c head => by cases head; rw [← same]; exact digit

private theorem mail_notMem_charMarks : ∀ text : List Char, Mark.mail ∉ charMarks text := by
  intro text member
  obtain ⟨c, _, impossible⟩ := List.mem_map.mp member
  cases impossible

private theorem reads_group {signed : Bool} {group : List Char} (isGroup : IsGroup classes group)
    (stops : StopsAt classes text) (reads : Reads classes text marks) (mailless : .mail ∉ marks) :
    ∃ marks, Reads classes (sign signed ++ group ++ text) marks ∧ .mail ∉ marks := by
  by_cases many : 9 ≤ group.length
  · refine ⟨_, .long isGroup many stops reads, ?_⟩
    exact List.not_mem_cons_of_ne_of_not_mem (by decide) mailless
  · refine ⟨_, .short isGroup (Nat.lt_of_not_le many) stops reads, ?_⟩
    rw [List.mem_append]
    exact not_or_intro (mail_notMem_charMarks _) mailless

theorem exists_reads : ∀ size (text : List Char), text.length ≤ size →
    ∃ marks, Reads classes text marks ∧ .mail ∉ marks := by
  intro size
  induction size with
  | zero =>
      intro text short
      rw [List.eq_nil_of_length_eq_zero (Nat.le_zero.mp short)]
      exact ⟨[], .nil, List.not_mem_nil⟩
  | succ size ih =>
      have grouped : ∀ {d : Char} {more : List Char} (signed : Bool), more.length ≤ size →
          classes.isDecimal d = true →
          ∃ marks, Reads classes (sign signed ++ d :: more) marks ∧ .mail ∉ marks := by
        intro d more signed short digit
        obtain ⟨group, rest, split, isGroup, stops⟩ := @exists_group classes d more digit
        have positive := List.length_pos_iff.mpr isGroup.nonempty
        have sizes := congrArg List.length split
        rw [List.length_cons, List.length_append] at sizes
        obtain ⟨marks, reads, mailless⟩ := ih rest (by omega)
        rw [split, ← List.append_assoc]
        exact reads_group isGroup stops reads mailless
      intro text short
      cases text with
      | nil => exact ⟨[], .nil, List.not_mem_nil⟩
      | cons c more =>
          have shorter := Nat.le_of_succ_le_succ short
          cases decimal : classes.isDecimal c with
          | true => exact grouped false shorter decimal
          | false =>
              by_cases followed : c = '+' ∧ ¬NoDigit classes more
              · obtain ⟨rfl, digits⟩ := followed
                cases more with
                | nil => exact absurd (fun _ head => by cases head) digits
                | cons d others =>
                    refine grouped true (Nat.le_of_succ_le shorter) ?_
                    cases digit : classes.isDecimal d with
                    | true => rfl
                    | false => exact absurd (fun _ head => by cases head; exact digit) digits
              · obtain ⟨marks, reads, mailless⟩ := ih more shorter
                refine ⟨.char c :: marks, .plain decimal (fun plus => ?_) reads, ?_⟩
                · exact not_not.mp fun digits => followed ⟨plus, digits⟩
                · exact List.not_mem_cons_of_ne_of_not_mem (by simp) mailless

private theorem expanded_of_mailless : ∀ marks : List Mark, .mail ∉ marks →
    marks.flatMap Mark.expanded = marks := by
  intro marks
  induction marks with
  | nil => exact fun _ => rfl
  | cons mark others ih =>
      intro mailless
      rw [List.flatMap_cons, ih (fun member => mailless (.tail _ member))]
      cases mark with
      | mail => exact absurd List.mem_cons_self mailless
      | char c => rfl
      | phone => rfl

theorem reads_phoneMarks (gap : List Char) : Reads classes gap (phoneMarks classes gap) := by
  obtain ⟨marks, reads, mailless⟩ := @exists_reads classes gap.length gap (Nat.le_refl _)
  have found := pieces_of_reads reads none
  rw [expanded_of_mailless marks mailless] at found
  unfold phoneMarks pieces
  rw [found]
  exact reads

private theorem reads_marksFrom (found : List (Piece Char)) : ∀ gap,
    Reads classes (gap ++ found.flatMap (Piece.replaced emailMask))
      (marksFrom classes gap found) := by
  induction found with
  | nil =>
      intro gap
      rw [List.flatMap_nil, List.append_nil, marksFrom]
      exact reads_phoneMarks gap
  | cons piece others ih =>
      intro gap
      cases piece with
      | single c =>
          have further := ih (gap ++ [c])
          rw [List.append_assoc] at further
          exact further
      | hit items => exact reads_append (reads_phoneMarks gap) (ih [])

theorem reads_marksOf (text : List Char) :
    Reads classes (replaceAll classes.emailRe emailMask text) (marksOf classes text) :=
  reads_marksFrom _ []

theorem digitPasses_of_reads (reads : Reads classes text marks) :
    replaceAll classes.phoneRe phoneMask (replaceAll classes.longDigitsRe longDigitsMask text) =
      rawText marks :=
  replacePhone_of_reads (reads_longFrom reads none)

theorem redactText_eq_raw (text : List Char) :
    redactText classes text = rawText (marksOf classes text) :=
  digitPasses_of_reads (reads_marksOf text)

theorem rawText_cons (mark : Mark) (marks : List Mark) :
    rawText (mark :: marks) = mark.raw ++ rawText marks := rfl

private theorem rawText_append (front back : List Mark) :
    rawText (front ++ back) = rawText front ++ rawText back :=
  List.flatMap_append

theorem stops_rawText (reads : Reads classes text marks) :
    StopsAt classes text → StopsAt classes (rawText marks) := by
  have other : ∀ {c : Char} (more : List Char), classes.isPhone c = false →
      StopsAt classes (c :: more) := by
    intro c more unfit
    rw [stops_cons_iff, unfit]
    exact fun impossible => by cases impossible
  induction reads with
  | nil => exact fun _ => stops_nil
  | plain _other _apart _later ih =>
      intro stops
      rw [rawText_cons]
      exact stops_cons_iff.mpr fun phone =>
        ⟨(stops_cons_iff.mp stops phone).1, ih (stops_cons_iff.mp stops phone).2⟩
  | @short signed group text marks isGroup _few _stops _later _ih =>
      intro stops
      cases signed with
      | true => exact other _ not_phone_plus
      | false => exact absurd (noDigit_of_stops stops) isGroup.not_noDigit
  | long _isGroup _many _stops _later _ih => exact fun _ => other _ not_phone_plus
  | mail _later _ih => exact fun _ => other _ not_phone_u

private theorem noDigit_rawText (reads : Reads classes text marks)
    (noDigit : NoDigit classes text) :
    NoDigit classes (rawText marks) := by
  cases reads with
  | nil => exact noDigit
  | plain other _apart _later => exact fun c head => by cases head; exact other
  | @short signed group text marks isGroup _few _stops _later =>
      cases signed with
      | true => exact noDigit_of_ascii (by decide) rfl
      | false => exact absurd noDigit isGroup.not_noDigit
  | long _isGroup _many _stops _later => exact noDigit_of_ascii (by decide) rfl
  | mail _later => exact noDigit_of_ascii (by decide) rfl

theorem phoneDigits_digits : ∀ c ∈ phoneDigits, classes.isDecimal c = true := by
  intro c member
  have ascii : phoneDigits.all (fun c => decide (c.toNat < 128) && c.isDigit) = true := by decide
  have both := List.all_eq_true.mp ascii c member
  rw [Bool.and_eq_true] at both
  rw [classes.decimal_ascii c (of_decide_eq_true both.1), both.2]

private theorem isGroup_phoneDigits : IsGroup classes phoneDigits :=
  { nonempty := List.cons_ne_nil _ _
    inside := fun c member => isPhone_of_decimal c (phoneDigits_digits c member)
    first := fun c head => phoneDigits_digits c (List.mem_of_head? head)
    last := fun c last => phoneDigits_digits c (List.mem_of_getLast? last) }

private theorem reads_rawText (reads : Reads classes text marks) :
    Reads classes (rawText marks) marks := by
  induction reads with
  | nil => exact .nil
  | plain other apart later ih =>
      exact .plain other (fun plus => noDigit_rawText later (apart plus)) ih
  | @short signed group text marks isGroup few stops later ih =>
      rw [rawText_append, rawText_charMarks]
      exact .short isGroup few (stops_rawText later stops) ih
  | @long signed group text marks isGroup many stops later ih =>
      exact @Reads.long classes true _ _ _ isGroup_phoneDigits (by decide)
        (stops_rawText later stops) ih
  | mail _later ih => exact .mail ih

theorem redactText_twice {text : List Char}
    (same : replaceAll classes.emailRe emailMask (redactText classes text) =
      redactText classes text) :
    redactText classes (redactText classes text) = redactText classes text := by
  have reads := reads_rawText (@reads_marksOf classes text)
  rw [← redactText_eq_raw] at reads
  have passes := digitPasses_of_reads reads
  rw [← redactText_eq_raw] at passes
  unfold redactText at passes same ⊢
  rw [same]
  exact passes

end Marks

end MigrationPlatform.Suggest
