/-
Intervals of schedules: the texts that `humantime` accepts on the side of the
API, and `time.ParseDuration` on the side of the bridge.

The API checks an interval with the one and sends its text; the bridge reads it
with the other. The grammar of `humantime` knows more units, and white space
between and behind the spans; and what stands behind a decimal point it works
out in whole numbers, the bridge in double precision. `parseDuration_eq_iff`
says which of its texts the bridge reads as the same duration.
-/

import MigrationPlatform.Batch.Manifest
import MigrationPlatform.Connectors.JsonNumbers
import Mathlib.Data.List.TakeWhile

namespace MigrationPlatform.Schedules

open BinaryRounding
open MigrationPlatform.Batch (isSpaceRune)
open MigrationPlatform.Connectors (float64 significandBits significandBits_pos)

/-- Suffixes with their nanoseconds. A month is 30.44 days and a year 365.25. -/
def humantimeUnits : List (String × Nat) :=
  [("nanos", 1), ("nsec", 1), ("ns", 1), ("usec", 1000), ("us", 1000), ("µs", 1000),
    ("millis", 1000000), ("msec", 1000000), ("ms", 1000000),
    ("seconds", 1000000000), ("second", 1000000000), ("secs", 1000000000), ("sec", 1000000000),
    ("s", 1000000000),
    ("minutes", 60000000000), ("minute", 60000000000), ("mins", 60000000000),
    ("min", 60000000000), ("m", 60000000000),
    ("hours", 3600000000000), ("hour", 3600000000000), ("hrs", 3600000000000),
    ("hr", 3600000000000), ("h", 3600000000000),
    ("days", 86400000000000), ("day", 86400000000000), ("d", 86400000000000),
    ("weeks", 604800000000000), ("week", 604800000000000), ("wks", 604800000000000),
    ("wk", 604800000000000), ("w", 604800000000000),
    ("months", 2630016000000000), ("month", 2630016000000000), ("M", 2630016000000000),
    ("years", 31557600000000000), ("year", 31557600000000000), ("yrs", 31557600000000000),
    ("yr", 31557600000000000), ("y", 31557600000000000)]

def digitValue (c : Char) : Nat := c.toNat - 48

def decimal (x : Nat) (chars : List Char) : Nat :=
  chars.foldl (fun n c => if c.isDigit then n * 10 + digitValue c else n) x

/-- A number, with decimal places or without, and a suffix. White space may stand
before the number, and between and behind its digits. -/
structure Span where
  blank : List Char
  first : Char
  others : List Char
  /-- What stands behind a decimal point. -/
  places : Option (List Char)
  name : List Char
  unit : Nat
  spaces : ∀ c ∈ blank, isSpaceRune c = true
  digit : first.isDigit = true
  digits : ∀ c ∈ others, c.isDigit = true ∨ isSpaceRune c = true
  decimals : ∀ c ∈ places.getD [], c.isDigit = true ∨ isSpaceRune c = true
  known : (String.ofList name, unit) ∈ humantimeUnits

def Span.number (span : Span) : List Char := span.first :: span.others

def Span.point (span : Span) : List Char :=
  match span.places with
  | none => []
  | some chars => '.' :: chars

def Span.text (span : Span) : List Char :=
  span.blank ++ (span.number ++ (span.point ++ span.name))

/-- The decimal places of a unit, as far as they come to whole nanoseconds. -/
def placesValue (chars : List Char) (unit : Nat) : Nat :=
  decimal 0 chars * unit / 10 ^ chars.countP Char.isDigit

def Span.value (span : Span) : Nat :=
  decimal 0 span.number * span.unit + placesValue (span.places.getD []) span.unit

def total : List Span → Nat
  | [] => 0
  | span :: rest => span.value + total rest

/-- The text is the spans one after the other, with white space behind them. -/
structure Interval (text : String) (spans : List Span) (trailing : List Char) : Prop where
  some_span : spans ≠ []
  spaces : ∀ c ∈ trailing, isSpaceRune c = true
  written : text.toList = spans.flatMap Span.text ++ trailing

/-- What `parse_duration` documents of the texts it accepts: a concatenation of
spans, or a bare zero. -/
structure HumantimeGrammar (humantime : String → Option Nat) : Prop where
  accepted : ∀ text duration, humantime text = some duration →
    (text = "0" ∧ duration = 0) ∨
      ∃ spans trailing, Interval text spans trailing ∧ duration = total spans

def goUnits : List (String × Nat) :=
  [("ns", 1), ("us", 1000), ("µs", 1000), ("μs", 1000), ("ms", 1000000), ("s", 1000000000),
    ("m", 60000000000), ("h", 3600000000000)]

def leadingInt (x : Nat) : List Char → Option (Nat × List Char)
  | [] => some (x, [])
  | c :: rest =>
      if c.isDigit = false then some (x, c :: rest)
      else if 922337203685477580 < x then none
      else if 9223372036854775808 < x * 10 + digitValue c then none
      else leadingInt (x * 10 + digitValue c) rest

/-- Whether a character belongs to a unit. -/
def inUnit (c : Char) : Bool := c != '.' && !c.isDigit

/-- A turn of `leadingFraction`; the flag is set where no more digits count. -/
def fractionDigit (read : Nat × Nat × Bool) (c : Char) : Nat × Nat × Bool :=
  if read.2.2 = true then read
  else if 922337203685477580 < read.1 then (read.1, read.2.1, true)
  else if 9223372036854775808 < read.1 * 10 + digitValue c then (read.1, read.2.1, true)
  else (read.1 * 10 + digitValue c, float64 (read.2.1 * 10), false)

/-- The digits and the scale, a whole number in double precision. -/
def leadingFraction (digits : List Char) : Nat × Nat × Bool := digits.foldl fractionDigit (0, 1, false)

/-- `uint64(float64(f) * (float64(unit) / scale))`. The factors are multiples of
`2 ^ -(shift + 1)`, with enough bits that the quotient is rounded only once. -/
def fractionOf (digits : List Char) (unit : Nat) : Nat :=
  let f := (leadingFraction digits).1
  let scale := (leadingFraction digits).2.1
  let shift := scale.log2 + 64
  float64 (float64 f * float64 (jammed (unit * 2 ^ shift) scale)) / 2 ^ (shift + 1)

def goPoint : List Char → List Char × List Char
  | '.' :: rest => (rest.takeWhile Char.isDigit, rest.dropWhile Char.isDigit)
  | s => ([], s)

def goSpan (s : List Char) : Option (Nat × List Char) :=
  match s with
  | [] => none
  | c :: _ =>
      if inUnit c = true then none
      else
        match leadingInt 0 s with
        | none => none
        | some (v, afterInt) =>
            if afterInt.length = s.length ∧ (goPoint afterInt).1 = [] then none
            else
              match goUnits.lookup (String.ofList ((goPoint afterInt).2.takeWhile inUnit)) with
              | none => none
              | some unit =>
                  if 9223372036854775808 / unit < v then none
                  else
                    let scaled := v * unit + fractionOf (goPoint afterInt).1 unit
                    if 9223372036854775808 < scaled then none
                    else some (scaled, (goPoint afterInt).2.dropWhile inUnit)

def goLoop : Nat → List Char → Nat → Option Nat
  | _, [], d => some d
  | 0, _ :: _, _ => none
  | fuel + 1, s, d =>
      match goSpan s with
      | none => none
      | some (v, rest) =>
          if 9223372036854775808 < (d + v) % 18446744073709551616 then none
          else goLoop fuel rest ((d + v) % 18446744073709551616)

def parseDuration (text : String) : Option Int :=
  let signed := text.toList.head? = some '-' ∨ text.toList.head? = some '+'
  let s := if signed then text.toList.tail else text.toList
  if s = ['0'] then some 0
  else if s = [] then none
  else
    match goLoop s.length s 0 with
    | none => none
    | some d =>
        if text.toList.head? = some '-' then some (-d)
        else if 9223372036854775807 < d then none
        else some d

variable {c : Char}

theorem digit_range (digit : c.isDigit = true) : 48 ≤ c.toNat ∧ c.toNat ≤ 57 := by
  unfold Char.isDigit at digit
  rw [Bool.and_eq_true, decide_eq_true_eq, decide_eq_true_eq] at digit
  exact digit

theorem space_inUnit (space : isSpaceRune c = true) : inUnit c = true := by
  have others : ∀ n ∈ Batch.spaceRunes, n ≠ 46 ∧ ¬ (48 ≤ n ∧ n ≤ 57) := by
    decide
  obtain ⟨notPoint, notDigit⟩ := others c.toNat (List.contains_iff_mem.mp space)
  unfold inUnit
  rw [Bool.and_eq_true, bne_iff_ne, Bool.not_eq_true']
  constructor
  · intro point
    rw [point] at notPoint
    exact notPoint rfl
  · rw [Bool.eq_false_iff]
    intro digit
    exact notDigit (digit_range digit)

theorem not_digit_of_inUnit (other : inUnit c = true) : c.isDigit = false := by
  unfold inUnit at other
  rw [Bool.and_eq_true, Bool.not_eq_true'] at other
  exact other.2

private theorem not_point_of_inUnit (other : inUnit c = true) : c ≠ '.' := by
  unfold inUnit at other
  rw [Bool.and_eq_true, bne_iff_ne] at other
  exact other.1

theorem digit_not_inUnit (digit : c.isDigit = true) : inUnit c = false := by
  unfold inUnit
  rw [digit]
  exact Bool.and_false _

theorem humantimeUnits_names : ∀ entry ∈ humantimeUnits, entry.1.toList ≠ [] ∧
    ∀ c ∈ entry.1.toList, inUnit c = true := by
  have all : humantimeUnits.all (fun entry =>
      !entry.1.toList.isEmpty && entry.1.toList.all inUnit) = true := by
    decide +kernel
  intro entry member
  have one := List.all_eq_true.mp all entry member
  rw [Bool.and_eq_true, List.all_eq_true] at one
  exact ⟨by simpa using one.1, one.2⟩

private theorem goUnits_names : ∀ entry ∈ goUnits, ∀ c ∈ entry.1.toList, isSpaceRune c = false := by
  have all : goUnits.all (fun entry =>
      entry.1.toList.all (fun c => !isSpaceRune c)) = true := by
    decide +kernel
  intro entry member c inside
  have one := List.all_eq_true.mp (List.all_eq_true.mp all entry member) c inside
  exact (Bool.not_eq_true' _).mp one

private theorem units_agree : ∀ entry ∈ humantimeUnits, ∀ other ∈ goUnits, entry.1 = other.1 →
    entry.2 = other.2 := by
  decide +kernel

theorem goUnits_lookup {name : String} {unit : Nat} (found : goUnits.lookup name = some unit) :
    (name, unit) ∈ goUnits := by
  obtain ⟨before, after, parts, _⟩ := List.lookup_eq_some_iff.mp found
  rw [parts]
  exact List.mem_append_right before List.mem_cons_self

theorem lookup_goUnits {name : String} {unit : Nat} (member : (name, unit) ∈ goUnits) :
    goUnits.lookup name = some unit := by
  have all : ∀ entry ∈ goUnits, goUnits.lookup entry.1 = some entry.2 := by
    decide +kernel
  exact all (name, unit) member

private theorem lookup_of_space {name : List Char} (member : c ∈ name)
    (space : isSpaceRune c = true) : goUnits.lookup (String.ofList name) = none := by
  cases found : goUnits.lookup (String.ofList name) with
  | none => rfl
  | some unit =>
      have clean := goUnits_names _ (goUnits_lookup found) c
      rw [String.toList_ofList, space] at clean
      cases clean member

theorem decimal_digit (digit : c.isDigit = true) (x : Nat) (rest : List Char) :
    decimal x (c :: rest) = decimal (x * 10 + digitValue c) rest := by
  unfold decimal
  rw [List.foldl_cons, if_pos digit]

private theorem le_decimal (chars : List Char) (x : Nat) : x ≤ decimal x chars := by
  induction chars generalizing x with
  | nil => exact Nat.le_refl x
  | cons c rest ih =>
      unfold decimal
      rw [List.foldl_cons]
      split
      · have later := ih (x * 10 + digitValue c)
        unfold decimal at later
        omega
      · exact ih x

theorem leadingInt_some {s rest : List Char} {x v : Nat} (read : leadingInt x s = some (v, rest)) :
    v = decimal x (s.takeWhile Char.isDigit) ∧ rest = s.dropWhile Char.isDigit := by
  induction s generalizing x with
  | nil =>
      cases read
      exact ⟨rfl, rfl⟩
  | cons c more ih =>
      unfold leadingInt at read
      split at read
      · rename_i other
        cases read
        rw [List.takeWhile_cons, List.dropWhile_cons, other]
        exact ⟨rfl, rfl⟩
      · rename_i digit
        rw [Bool.not_eq_false] at digit
        split at read
        · cases read
        · split at read
          · cases read
          · obtain ⟨value, left⟩ := ih read
            rw [List.takeWhile_cons, List.dropWhile_cons, digit, value, left]
            exact ⟨(decimal_digit digit x _).symm, rfl⟩

private theorem leadingInt_digits {digits tail : List Char} (all : ∀ c ∈ digits, c.isDigit = true)
    (ends : ∀ c, tail.head? = some c → c.isDigit = false) (x : Nat)
    (fits : decimal x digits ≤ 9223372036854775808) :
    leadingInt x (digits ++ tail) = some (decimal x digits, tail) := by
  induction digits generalizing x with
  | nil =>
      cases tail with
      | nil => rfl
      | cons c rest =>
          rw [List.nil_append, leadingInt, if_pos (ends c rfl)]
          rfl
  | cons c rest ih =>
      have digit := all c List.mem_cons_self
      have later := le_decimal rest (x * 10 + digitValue c)
      rw [decimal_digit digit] at fits ⊢
      rw [List.cons_append, leadingInt, digit, if_neg (by decide),
        if_neg (by omega), if_neg (by omega)]
      exact ih (fun d member => all d (List.mem_cons_of_mem c member)) _ fits

/-! ### Spans -/

/-- A span as the bridge wants it: nothing but digits and a unit it knows. -/
structure Span.Compact (span : Span) : Prop where
  unspaced : span.blank = []
  plainDigits : ∀ c ∈ span.others, c.isDigit = true
  plainDecimals : ∀ c ∈ span.places.getD [], c.isDigit = true
  goUnit : (String.ofList span.name, span.unit) ∈ goUnits

/-- What the bridge reads. -/
def Span.read (span : Span) : Nat :=
  decimal 0 span.number * span.unit + fractionOf (span.places.getD []) span.unit

theorem Span.name_ne_nil (span : Span) : span.name ≠ [] := by
  have names := (humantimeUnits_names _ span.known).1
  rw [String.toList_ofList] at names
  exact names

theorem Span.name_inUnit (span : Span) : ∀ c ∈ span.name, inUnit c = true := by
  have names := (humantimeUnits_names _ span.known).2
  rw [String.toList_ofList] at names
  exact names

def Follows (more : List Char) : Prop :=
  ∀ c, more.head? = some c → c.isDigit = true ∨ isSpaceRune c = true

private theorem follows_text (span : Span) (more : List Char) : Follows (span.text ++ more) := by
  intro c head
  unfold Span.text at head
  cases blank : span.blank with
  | nil =>
      rw [blank] at head
      cases head
      exact .inl span.digit
  | cons d rest =>
      rw [blank] at head
      cases head
      apply Or.inr
      apply span.spaces
      rw [blank]
      exact List.mem_cons_self

theorem follows_interval (spans : List Span) {trailing : List Char}
    (spaces : ∀ c ∈ trailing, isSpaceRune c = true) :
    Follows (spans.flatMap Span.text ++ trailing) := by
  cases spans with
  | nil =>
      intro c head
      cases trailing with
      | nil => cases head
      | cons d rest =>
          cases head
          exact .inr (spaces c List.mem_cons_self)
  | cons span rest =>
      rw [List.flatMap_cons, List.append_assoc]
      exact follows_text span _

theorem takeWhile_name (span : Span) (more : List Char) :
    (span.name ++ more).takeWhile inUnit = span.name ++ more.takeWhile inUnit ∧
      (span.name ++ more).dropWhile inUnit = more.dropWhile inUnit :=
  ⟨List.takeWhile_append_of_pos span.name_inUnit, List.dropWhile_append_of_pos span.name_inUnit⟩

theorem head_name (span : Span) (more : List Char) :
    ∀ c, (span.name ++ more).head? = some c → inUnit c = true := by
  intro c head
  cases name : span.name with
  | nil => exact absurd name span.name_ne_nil
  | cons d rest =>
      rw [name] at head
      cases head
      apply span.name_inUnit
      rw [name]
      exact List.mem_cons_self

theorem unit_ends {more : List Char} (next : ∀ c, more.head? = some c → c.isDigit = true) :
    more.takeWhile inUnit = [] ∧ more.dropWhile inUnit = more := by
  cases more with
  | nil => exact ⟨rfl, rfl⟩
  | cons c later =>
      rw [List.takeWhile_cons, List.dropWhile_cons, digit_not_inUnit (next c rfl)]
      exact ⟨rfl, rfl⟩

theorem digits_end {digits tail : List Char} (all : ∀ c ∈ digits, c.isDigit = true)
    (stops : ∀ c, tail.head? = some c → c.isDigit = false) :
    (digits ++ tail).takeWhile Char.isDigit = digits ∧
      (digits ++ tail).dropWhile Char.isDigit = tail := by
  rw [List.takeWhile_append_of_pos all, List.dropWhile_append_of_pos all]
  cases tail with
  | nil => exact ⟨List.append_nil _, rfl⟩
  | cons c rest =>
      rw [List.takeWhile_cons, List.dropWhile_cons, stops c rfl]
      exact ⟨List.append_nil _, rfl⟩

theorem goPoint_other {s : List Char} (unpointed : s.head? ≠ some '.') : goPoint s = ([], s) := by
  unfold goPoint
  split
  · exact absurd rfl unpointed
  · rfl

theorem goSpan_eq {s : List Char} (digit : c.isDigit = true) :
    goSpan (c :: s) =
      match leadingInt 0 (c :: s) with
      | none => none
      | some (v, afterInt) =>
          match goUnits.lookup (String.ofList ((goPoint afterInt).2.takeWhile inUnit)) with
          | none => none
          | some unit =>
              if 9223372036854775808 / unit < v then none
              else if 9223372036854775808 < v * unit + fractionOf (goPoint afterInt).1 unit then none
              else
                some (v * unit + fractionOf (goPoint afterInt).1 unit,
                  (goPoint afterInt).2.dropWhile inUnit) := by
  unfold goSpan
  dsimp only
  rw [if_neg (by rw [digit_not_inUnit digit]; exact Bool.false_ne_true)]
  cases read : leadingInt 0 (c :: s) with
  | none => rfl
  | some pair =>
      obtain ⟨v, afterInt⟩ := pair
      have shorter : afterInt.length ≠ (c :: s).length := by
        rw [(leadingInt_some read).2, List.dropWhile_cons, digit, if_pos rfl, List.length_cons]
        have bound := (List.dropWhile_sublist Char.isDigit (l := s)).length_le
        omega
      dsimp only
      rw [if_neg (fun both => shorter both.1)]

private theorem goSpan_unit {s rest : List Char} {v : Nat} (digit : c.isDigit = true)
    (read : goSpan (c :: s) = some (v, rest)) :
    ∃ unit, goUnits.lookup (String.ofList
      ((goPoint ((c :: s).dropWhile Char.isDigit)).2.takeWhile inUnit)) = some unit := by
  rw [goSpan_eq digit] at read
  cases int : leadingInt 0 (c :: s) with
  | none =>
      rw [int] at read
      cases read
  | some pair =>
      obtain ⟨number, afterInt⟩ := pair
      rw [int] at read
      dsimp only at read
      rw [(leadingInt_some int).2] at read
      cases found : goUnits.lookup (String.ofList
          ((goPoint ((c :: s).dropWhile Char.isDigit)).2.takeWhile inUnit)) with
      | none =>
          rw [found] at read
          cases read
      | some unit => exact ⟨unit, rfl⟩

theorem digit_parts {chars : List Char}
    (each : ∀ c ∈ chars, c.isDigit = true ∨ isSpaceRune c = true) :
    ∃ digits blanks, chars = digits ++ blanks ∧ (∀ c ∈ digits, c.isDigit = true) ∧
      ∀ c, blanks.head? = some c → isSpaceRune c = true := by
  refine ⟨chars.takeWhile Char.isDigit, chars.dropWhile Char.isDigit,
    (List.takeWhile_append_dropWhile).symm, fun c member => List.mem_takeWhile_imp member, ?_⟩
  intro c head
  have other : c.isDigit = false := by
    have ends := List.head?_dropWhile_not Char.isDigit chars
    rw [head] at ends
    exact ends
  have member : c ∈ chars :=
    (List.dropWhile_suffix Char.isDigit).mem (List.mem_of_head? head)
  rcases each c member with digit | space
  · rw [digit] at other
    cases other
  · exact space

private theorem goSpan_blank {span : Span} {more rest : List Char} {v : Nat}
    (read : goSpan (span.text ++ more) = some (v, rest)) : span.blank = [] := by
  cases blank : span.blank with
  | nil => rfl
  | cons c others =>
      have space : isSpaceRune c = true := by
        apply span.spaces
        rw [blank]
        exact List.mem_cons_self
      unfold Span.text at read
      rw [blank] at read
      simp only [List.cons_append, goSpan, space_inUnit space, if_true] at read
      cases read

theorem lookup_of_head {tail : List Char} {name : List Char} (head : tail.head? = some c)
    (space : isSpaceRune c = true) :
    goUnits.lookup (String.ofList (name ++ tail.takeWhile inUnit)) = none := by
  apply lookup_of_space _ space
  cases tail with
  | nil => cases head
  | cons d rest =>
      cases head
      rw [List.takeWhile_cons, space_inUnit space]
      exact List.mem_append_right name List.mem_cons_self

theorem blanks_nil {blanks tail : List Char} {unit : Nat}
    (spaces : ∀ c, blanks.head? = some c → isSpaceRune c = true)
    (found : goUnits.lookup (String.ofList ((blanks ++ tail).takeWhile inUnit)) = some unit) :
    blanks = [] := by
  cases some_blank : blanks with
  | nil => rfl
  | cons c later =>
      rw [some_blank] at found spaces
      have lost := @lookup_of_head c (c :: later ++ tail) [] rfl (spaces c rfl)
      rw [List.nil_append, found] at lost
      cases lost

theorem stops_of_space {blanks tail : List Char}
    (spaces : ∀ c, blanks.head? = some c → isSpaceRune c = true)
    (ends : ∀ c, tail.head? = some c → c.isDigit = false) :
    ∀ c, (blanks ++ tail).head? = some c → c.isDigit = false := by
  intro c head
  cases left : blanks with
  | nil =>
      rw [left, List.nil_append] at head
      exact ends c head
  | cons d later =>
      rw [left] at head spaces
      cases head
      exact not_digit_of_inUnit (space_inUnit (spaces c rfl))

theorem head_point (span : Span) (more : List Char) :
    ∀ c, (span.point ++ (span.name ++ more)).head? = some c → c.isDigit = false := by
  intro c head
  unfold Span.point at head
  cases places : span.places with
  | none =>
      rw [places] at head
      exact not_digit_of_inUnit (head_name span more c head)
  | some chars =>
      rw [places] at head
      cases head
      rfl

theorem Span.text_eq {span : Span} (unspaced : span.blank = []) (more : List Char) :
    span.text ++ more = span.first :: (span.others ++ (span.point ++ (span.name ++ more))) := by
  unfold Span.text Span.number
  rw [unspaced]
  simp only [List.nil_append, List.cons_append, List.append_assoc]

theorem goPoint_point {span : Span} (plain : ∀ c ∈ span.places.getD [], c.isDigit = true)
    (more : List Char) :
    goPoint (span.point ++ (span.name ++ more)) = (span.places.getD [], span.name ++ more) := by
  have ends := fun c (head : (span.name ++ more).head? = some c) =>
    not_digit_of_inUnit (head_name span more c head)
  unfold Span.point
  cases places : span.places with
  | none =>
      apply goPoint_other
      intro point
      exact not_point_of_inUnit (head_name span more '.' point) rfl
  | some chars =>
      rw [places] at plain
      have parted := digits_end plain ends
      exact Prod.ext parted.1 parted.2

theorem goSpan_span {span : Span} {more rest : List Char} {v : Nat} (follows : Follows more)
    (read : goSpan (span.text ++ more) = some (v, rest)) :
    span.Compact ∧ ∀ c, more.head? = some c → c.isDigit = true := by
  have unspaced := goSpan_blank read
  rw [span.text_eq unspaced] at read
  obtain ⟨unit, found⟩ := goSpan_unit span.digit read
  obtain ⟨digits, blanks, parts, all, spaces⟩ := digit_parts span.digits
  -- white space behind the digits would be the start of the unit
  have left : (span.first :: (span.others ++ (span.point ++ (span.name ++ more)))).dropWhile
      Char.isDigit = blanks ++ (span.point ++ (span.name ++ more)) := by
    have ends := stops_of_space spaces (head_point span more)
    have parted := digits_end (List.forall_mem_cons.mpr ⟨span.digit, all⟩) ends
    rw [parts, List.append_assoc]
    exact parted.2
  rw [left] at found
  have undivided : blanks = [] := by
    by_cases point : (blanks ++ (span.point ++ (span.name ++ more))).head? = some '.'
    · cases some_blank : blanks with
      | nil => rfl
      | cons c later =>
          rw [some_blank] at point spaces
          cases point
          exact absurd (spaces '.' rfl) (by decide)
    · rw [goPoint_other point] at found
      exact blanks_nil spaces found
  rw [undivided, List.nil_append] at found
  rw [undivided, List.append_nil] at parts
  -- and so would it behind the decimal places
  have plain : ∀ c ∈ span.places.getD [], c.isDigit = true := by
    cases places : span.places with
    | none => exact List.forall_mem_nil _
    | some chars =>
        have each := span.decimals
        rw [places] at each
        obtain ⟨decimals, gaps, shape, plain, between⟩ := digit_parts each
        have pointed : span.point = '.' :: (decimals ++ gaps) := by
          unfold Span.point
          rw [places]
          exact congrArg _ shape
        have ends := stops_of_space between
          (fun c head => not_digit_of_inUnit (head_name span more c head))
        have behind : goPoint (span.point ++ (span.name ++ more)) =
            (decimals, gaps ++ (span.name ++ more)) := by
          have parted := digits_end plain ends
          rw [pointed, List.cons_append, List.append_assoc]
          exact Prod.ext parted.1 parted.2
        rw [behind] at found
        have none_between := blanks_nil between found
        rw [none_between, List.append_nil] at shape
        rw [Option.getD_some] at shape ⊢
        rw [shape]
        exact plain
  rw [goPoint_point plain, (takeWhile_name span more).1] at found
  have next : ∀ c, more.head? = some c → c.isDigit = true := by
    intro c head
    rcases follows c head with digit | space
    · exact digit
    · rw [lookup_of_head head space] at found
      cases found
  rw [(unit_ends next).1, List.append_nil] at found
  have goUnit := goUnits_lookup found
  have sameUnit : span.unit = unit := units_agree _ span.known _ goUnit rfl
  rw [← sameUnit] at goUnit
  refine ⟨⟨unspaced, ?_, plain, goUnit⟩, next⟩
  rw [parts]
  exact all

structure Reads (span : Span) (more s : List Char) : Prop where
  number : s.takeWhile Char.isDigit = span.number
  point : goPoint (s.dropWhile Char.isDigit) = (span.places.getD [], span.name ++ more)
  name : (span.name ++ more).takeWhile inUnit = span.name
  rest : (span.name ++ more).dropWhile inUnit = more

theorem reads_compact {span : Span} {more : List Char} (compact : span.Compact)
    (next : ∀ c, more.head? = some c → c.isDigit = true) : Reads span more (span.text ++ more) := by
  have all : ∀ c ∈ span.number, c.isDigit = true :=
    List.forall_mem_cons.mpr ⟨span.digit, compact.plainDigits⟩
  have parted := digits_end all (head_point span more)
  have shape : span.text ++ more = span.number ++ (span.point ++ (span.name ++ more)) :=
    span.text_eq compact.unspaced more
  have ended := unit_ends next
  rw [shape]
  refine ⟨parted.1, ?_, ?_, ?_⟩
  · rw [parted.2]
    exact goPoint_point compact.plainDecimals more
  · rw [(takeWhile_name span more).1, ended.1, List.append_nil]
  · rw [(takeWhile_name span more).2, ended.2]

theorem goSpan_compact {span : Span} {more : List Char} (compact : span.Compact)
    (next : ∀ c, more.head? = some c → c.isDigit = true) :
    goSpan (span.text ++ more) =
      if 9223372036854775808 < span.read then none else some (span.read, more) := by
  have reads := reads_compact compact next
  have positive : 0 < span.unit := by
    have units : ∀ entry ∈ goUnits, 0 < entry.2 := by
      decide
    exact units _ compact.goUnit
  have found := lookup_goUnits compact.goUnit
  rw [span.text_eq compact.unspaced] at reads ⊢
  rw [goSpan_eq span.digit]
  cases int : leadingInt 0
      (span.first :: (span.others ++ (span.point ++ (span.name ++ more)))) with
  | none =>
      -- the number alone is too large
      rw [if_pos]
      by_contra fits
      have small : decimal 0 span.number ≤ decimal 0 span.number * span.unit :=
        Nat.le_mul_of_pos_right _ positive
      have all : ∀ c ∈ span.number, c.isDigit = true :=
        List.forall_mem_cons.mpr ⟨span.digit, compact.plainDigits⟩
      have read := leadingInt_digits all (head_point span more) 0 (by
        unfold Span.read at fits
        omega)
      change leadingInt 0 (span.number ++ _) = none at int
      rw [read] at int
      cases int
  | some pair =>
      obtain ⟨v, afterInt⟩ := pair
      obtain ⟨value, left⟩ := leadingInt_some int
      rw [reads.number] at value
      dsimp only
      rw [left, reads.point]
      dsimp only
      rw [reads.name, reads.rest, found, value]
      dsimp only
      change (if _ then none else if 9223372036854775808 < span.read then none
        else some (span.read, more)) = _
      by_cases large : 9223372036854775808 / span.unit < decimal 0 span.number
      · rw [if_pos large, if_pos]
        rw [Nat.div_lt_iff_lt_mul positive] at large
        unfold Span.read
        omega
      · rw [if_neg large]

/-! ### The loop over the spans -/

/-- The sum of the spans, as the bridge adds them up in 64 bits. -/
def bridgeSum : Nat → List Span → Option Nat
  | d, [] => some d
  | d, span :: rest =>
      if 9223372036854775808 < span.read then none
      else if 9223372036854775808 < (d + span.read) % 18446744073709551616 then none
      else bridgeSum ((d + span.read) % 18446744073709551616) rest

theorem goLoop_cons {s : List Char} {fuel d e : Nat} (read : goLoop fuel (c :: s) d = some e) :
    ∃ less v rest later, fuel = less + 1 ∧ goSpan (c :: s) = some (v, rest) ∧
      goLoop less rest later = some e := by
  cases fuel with
  | zero => cases read
  | succ less =>
      unfold goLoop at read
      cases span : goSpan (c :: s) with
      | none =>
          rw [span] at read
          cases read
      | some pair =>
          obtain ⟨v, rest⟩ := pair
          rw [span] at read
          dsimp only at read
          split at read
          · cases read
          · exact ⟨less, v, rest, _, rfl, rfl, read⟩

theorem Span.text_cons (span : Span) (more : List Char) : ∃ c s, span.text ++ more = c :: s := by
  cases text : span.text ++ more with
  | nil =>
      have empty := (List.append_eq_nil_iff.mp text).1
      unfold Span.text at empty
      have nothing := (List.append_eq_nil_iff.mp (List.append_eq_nil_iff.mp empty).2).1
      cases nothing
  | cons c s => exact ⟨c, s, rfl⟩

variable {spans : List Span}

theorem goLoop_some {trailing : List Char} {fuel d e : Nat}
    (spaces : ∀ c ∈ trailing, isSpaceRune c = true)
    (read : goLoop fuel (spans.flatMap Span.text ++ trailing) d = some e) :
    (∀ span ∈ spans, span.Compact) ∧ trailing = [] := by
  induction spans generalizing fuel d with
  | nil =>
      refine ⟨List.forall_mem_nil _, ?_⟩
      cases trailing with
      | nil => rfl
      | cons c rest =>
          obtain ⟨_, _, _, _, _, span, _⟩ := goLoop_cons read
          have space := space_inUnit (spaces c List.mem_cons_self)
          simp only [goSpan, space, if_true] at span
          cases span
  | cons span rest ih =>
      rw [List.flatMap_cons, List.append_assoc] at read
      obtain ⟨c, s, text⟩ := span.text_cons (rest.flatMap Span.text ++ trailing)
      rw [text] at read
      obtain ⟨less, v, left, later, _, first, loop⟩ := goLoop_cons read
      rw [← text] at first
      obtain ⟨compact, next⟩ := goSpan_span (follows_interval rest spaces) first
      rw [goSpan_compact compact next] at first
      split at first
      · cases first
      · cases first
        obtain ⟨others, ended⟩ := ih loop
        exact ⟨List.forall_mem_cons.mpr ⟨compact, others⟩, ended⟩

theorem head_spans (compact : ∀ span ∈ spans, span.Compact) :
    ∀ c, (spans.flatMap Span.text).head? = some c → c.isDigit = true := by
  intro c head
  cases spans with
  | nil => cases head
  | cons other later =>
      have unspaced := (compact other List.mem_cons_self).unspaced
      rw [List.flatMap_cons, other.text_eq unspaced] at head
      cases head
      exact other.digit

theorem total_unique {spans others : List Span} (compact : ∀ span ∈ spans, span.Compact)
    (alike : ∀ span ∈ others, span.Compact)
    (same : spans.flatMap Span.text = others.flatMap Span.text) : total spans = total others := by
  induction spans generalizing others with
  | nil =>
      cases others with
      | nil => rfl
      | cons other rest =>
          obtain ⟨c, s, text⟩ := other.text_cons (rest.flatMap Span.text)
          rw [List.flatMap_cons, text] at same
          cases same
  | cons span rest ih =>
      cases others with
      | nil =>
          obtain ⟨c, s, text⟩ := span.text_cons (rest.flatMap Span.text)
          rw [List.flatMap_cons, text] at same
          cases same
      | cons other later =>
          obtain ⟨first, compactRest⟩ := List.forall_mem_cons.mp compact
          obtain ⟨second, alikeRest⟩ := List.forall_mem_cons.mp alike
          rw [List.flatMap_cons, List.flatMap_cons] at same
          have one := reads_compact first (head_spans compactRest)
          have two := reads_compact second (head_spans alikeRest)
          rw [same] at one
          obtain ⟨places, behind⟩ := Prod.mk.inj (one.point.symm.trans two.point)
          have name : span.name = other.name := by
            rw [← one.name, ← two.name, behind]
          have unit : span.unit = other.unit := by
            have found := lookup_goUnits first.goUnit
            rw [name, lookup_goUnits second.goUnit] at found
            exact (Option.some.inj found).symm
          have left : rest.flatMap Span.text = later.flatMap Span.text := by
            rw [← one.rest, ← two.rest, behind]
          unfold total
          rw [ih compactRest alikeRest left]
          unfold Span.value
          rw [← one.number, ← two.number, places, unit]

theorem goLoop_compact (compact : ∀ span ∈ spans, span.Compact) (d : Nat)
    {fuel : Nat} (enough : (spans.flatMap Span.text).length ≤ fuel) :
    goLoop fuel (spans.flatMap Span.text) d = bridgeSum d spans := by
  induction spans generalizing d fuel with
  | nil =>
      cases fuel with
      | zero => rfl
      | succ less => rfl
  | cons span rest ih =>
      obtain ⟨first, others⟩ := List.forall_mem_cons.mp compact
      have read := goSpan_compact first (head_spans others)
      obtain ⟨c, s, text⟩ := span.text_cons (rest.flatMap Span.text)
      have positive : 0 < span.text.length := by
        unfold Span.text Span.number
        rw [List.length_append, List.length_append, List.length_cons]
        omega
      rw [List.flatMap_cons, List.length_append] at enough
      rw [List.flatMap_cons, text]
      cases fuel with
      | zero => omega
      | succ less =>
          unfold goLoop bridgeSum
          rw [← text, read]
          by_cases large : 9223372036854775808 < span.read
          · rw [if_pos large, if_pos large]
          · rw [if_neg large, if_neg large]
            dsimp only
            rw [ih others _ (by omega)]

/-! ### Decimal places that come to whole nanoseconds -/

def Span.Whole (span : Span) : Prop := 10 ^ (span.places.getD []).length ∣ span.unit

theorem foldl_fractionDigit {digits : List Char} (all : ∀ c ∈ digits, c.isDigit = true)
    {x scale : Nat} (below : x < scale)
    (few : scale * 10 ^ digits.length < 2 ^ significandBits) :
    digits.foldl fractionDigit (x, scale, false) =
      (decimal x digits, scale * 10 ^ digits.length, false) := by
  induction digits generalizing x scale with
  | nil => rw [List.length_nil, Nat.pow_zero, Nat.mul_one]; rfl
  | cons c rest ih =>
      obtain ⟨digit, others⟩ := List.forall_mem_cons.mp all
      have range := digit_range digit
      have value : digitValue c ≤ 9 := by
        unfold digitValue
        omega
      have scaled : scale * 10 * 10 ^ rest.length = scale * 10 ^ (c :: rest).length := by
        rw [List.length_cons, Nat.pow_succ, Nat.mul_assoc, Nat.mul_comm 10]
      rw [← scaled] at few
      have fewer : scale * 10 < 2 ^ significandBits :=
        lt_of_le_of_lt (Nat.le_mul_of_pos_right _ (Nat.pow_pos (by decide))) few
      have rounded : float64 (scale * 10) = scale * 10 :=
        roundTo_of_representable significandBits_pos (representable_of_lt fewer)
      have turn : fractionDigit (x, scale, false) c =
          (x * 10 + digitValue c, scale * 10, false) := by
        have bits : 2 ^ significandBits = 9007199254740992 := rfl
        unfold fractionDigit
        dsimp only
        rw [if_neg Bool.false_ne_true, if_neg (by omega), if_neg (by omega), rounded]
      rw [List.foldl_cons, turn, ih others (by omega) few, decimal_digit digit, scaled]

private theorem countP_digits {digits : List Char} (all : ∀ c ∈ digits, c.isDigit = true) :
    digits.countP Char.isDigit = digits.length := List.countP_eq_length.mpr all

private theorem decimal_lt {digits : List Char} (all : ∀ c ∈ digits, c.isDigit = true) :
    ∀ {x scale : Nat}, x < scale → decimal x digits < scale * 10 ^ digits.length := by
  induction digits with
  | nil =>
      intro x scale below
      rw [List.length_nil, Nat.pow_zero, Nat.mul_one]
      exact below
  | cons c rest ih =>
      intro x scale below
      obtain ⟨digit, others⟩ := List.forall_mem_cons.mp all
      have range := digit_range digit
      have value : digitValue c ≤ 9 := by
        unfold digitValue
        omega
      have later := @ih others (x * 10 + digitValue c) (scale * 10) (by omega)
      rw [decimal_digit digit, List.length_cons, Nat.pow_succ, Nat.mul_comm (10 ^ rest.length),
        ← Nat.mul_assoc]
      exact later

theorem fractionOf_whole {digits : List Char} {unit : Nat}
    (all : ∀ c ∈ digits, c.isDigit = true) (divides : 10 ^ digits.length ∣ unit)
    (positive : 0 < unit) (few : unit < 2 ^ significandBits) :
    fractionOf digits unit = placesValue digits unit := by
  obtain ⟨quotient, parts⟩ := divides
  have power : 0 < 10 ^ digits.length := Nat.pow_pos (by decide)
  have below : decimal 0 digits < 1 * 10 ^ digits.length := decimal_lt all Nat.one_pos
  rw [Nat.one_mul] at below
  have some_ : 0 < quotient := by
    apply Nat.pos_of_ne_zero
    intro zero
    rw [zero, Nat.mul_zero] at parts
    omega
  have scaleFew : 10 ^ digits.length < 2 ^ significandBits := by
    have le : 10 ^ digits.length ≤ unit := Nat.le_of_dvd positive ⟨quotient, parts⟩
    omega
  have read : leadingFraction digits = (decimal 0 digits, 10 ^ digits.length, false) := by
    have folded := foldl_fractionDigit all Nat.one_pos (by rw [Nat.one_mul]; exact scaleFew)
    rw [Nat.one_mul] at folded
    exact folded
  have quotientFew : quotient < 2 ^ significandBits := by
    have le : quotient ≤ unit := Nat.le_of_dvd positive ⟨10 ^ digits.length, by rw [parts]; ring⟩
    omega
  have productFew : decimal 0 digits * quotient < 2 ^ significandBits := by
    calc
      decimal 0 digits * quotient ≤ 10 ^ digits.length * quotient :=
        Nat.mul_le_mul_right _ below.le
      _ = unit := parts.symm
      _ < 2 ^ significandBits := few
  unfold fractionOf
  rw [read]
  dsimp only
  have jam := fun shift => jammed_mul power quotient shift
  have unitParts : unit = quotient * 10 ^ digits.length := by rw [parts, Nat.mul_comm]
  have numerator : float64 (decimal 0 digits) = decimal 0 digits :=
    roundTo_of_representable significandBits_pos (representable_of_lt (by omega))
  rw [unitParts, jam, numerator]
  unfold float64
  rw [roundTo_mul_two_pow significandBits_pos quotientFew, ← Nat.mul_assoc,
    roundTo_mul_two_pow significandBits_pos productFew, Nat.mul_div_cancel _ (Nat.two_pow_pos _)]
  unfold placesValue
  rw [countP_digits all, ← Nat.mul_assoc, Nat.mul_div_cancel _ power]

private theorem Span.read_whole {span : Span} (compact : span.Compact) (whole : span.Whole) :
    span.read = span.value := by
  have units : ∀ entry ∈ goUnits, 0 < entry.2 ∧ entry.2 < 2 ^ significandBits := by
    decide
  obtain ⟨positive, few⟩ := units _ compact.goUnit
  unfold Span.read Span.value
  rw [fractionOf_whole compact.plainDecimals whole positive few]

private theorem bridgeSum_whole (compact : ∀ span ∈ spans, span.Compact)
    (whole : ∀ span ∈ spans, span.Whole) {d : Nat} (fits : d + total spans ≤ 9223372036854775807) :
    bridgeSum d spans = some (d + total spans) := by
  induction spans generalizing d with
  | nil => rfl
  | cons span rest ih =>
      obtain ⟨first, others⟩ := List.forall_mem_cons.mp compact
      obtain ⟨exact_, later⟩ := List.forall_mem_cons.mp whole
      unfold total at fits ⊢
      have sum : (d + span.value) % 18446744073709551616 = d + span.value :=
        Nat.mod_eq_of_lt (by omega)
      unfold bridgeSum
      rw [Span.read_whole first exact_, if_neg (by omega), sum, if_neg (by omega),
        ih others later (by omega), Nat.add_assoc]

/-! ### The text -/

theorem Interval.long {text : String} {trailing : List Char}
    (interval : Interval text spans trailing) : 2 ≤ text.toList.length := by
  obtain ⟨span, rest, shape⟩ := List.exists_cons_of_ne_nil interval.some_span
  have named := List.length_pos_of_ne_nil span.name_ne_nil
  rw [interval.written, shape, List.flatMap_cons]
  unfold Span.text Span.number
  simp only [List.length_append, List.length_cons]
  omega

theorem parseDuration_interval {text : String} {trailing : List Char}
    (interval : Interval text spans trailing) :
    parseDuration text =
      match goLoop text.toList.length text.toList 0 with
      | none => none
      | some d => if 9223372036854775807 < d then none else some (d : Int) := by
  have follows := follows_interval spans interval.spaces
  rw [← interval.written] at follows
  have unsigned : ∀ sign : Char, sign = '-' ∨ sign = '+' → text.toList.head? ≠ some sign := by
    intro sign which head
    rcases follows sign head with digit | space
    · rcases which with minus | plus
      · rw [minus] at digit
        cases digit
      · rw [plus] at digit
        cases digit
    · revert space
      rcases which with minus | plus
      · rw [minus]
        decide
      · rw [plus]
        decide
  have minus := unsigned '-' (.inl rfl)
  have plus := unsigned '+' (.inr rfl)
  have long := interval.long
  have notZero : text.toList ≠ ['0'] := by
    intro same
    rw [same] at long
    simp at long
  have notEmpty : text.toList ≠ [] := by
    intro same
    rw [same] at long
    simp at long
  unfold parseDuration
  simp only [minus, plus, or_self, if_false, notZero, notEmpty]

theorem compact_of_parsed {text : String} {trailing : List Char} {duration : Int}
    (interval : Interval text spans trailing) (parsed : parseDuration text = some duration) :
    (∀ span ∈ spans, span.Compact) ∧ trailing = [] := by
  rw [parseDuration_interval interval, interval.written] at parsed
  cases read : goLoop (spans.flatMap Span.text ++ trailing).length
      (spans.flatMap Span.text ++ trailing) 0 with
  | none =>
      rw [read] at parsed
      cases parsed
  | some d => exact goLoop_some interval.spaces read

private theorem parseDuration_spans {text : String} (interval : Interval text spans [])
    (compact : ∀ span ∈ spans, span.Compact) :
    parseDuration text =
      match bridgeSum 0 spans with
      | none => none
      | some d => if 9223372036854775807 < d then none else some (d : Int) := by
  rw [parseDuration_interval interval, interval.written, List.append_nil,
    goLoop_compact compact 0 (Nat.le_refl _)]

theorem parseDuration_sum_iff {text : String} (interval : Interval text spans [])
    (compact : ∀ span ∈ spans, span.Compact) (duration : Nat) :
    parseDuration text = some (duration : Int) ↔
      bridgeSum 0 spans = some duration ∧ duration ≤ 9223372036854775807 := by
  rw [parseDuration_spans interval compact]
  cases bridgeSum 0 spans with
  | none => exact iff_of_false nofun (fun both => nomatch both.1)
  | some d =>
      dsimp only
      constructor
      · intro parsed
        split at parsed
        · cases parsed
        · have same : (d : Int) = duration := Option.some.inj parsed
          have equal : d = duration := by omega
          rw [← equal]
          exact ⟨rfl, by omega⟩
      · rintro ⟨same, fits⟩
        cases same
        rw [if_neg (by omega)]

/-- Written as the bridge reads it: a bare zero, or numbers with units of
`time.ParseDuration` and nothing between them, which come to the same sum, of at
most the largest duration, on both sides. -/
def BridgeInterval (text : String) : Prop :=
  text = "0" ∨ ∃ spans, Interval text spans [] ∧ (∀ span ∈ spans, span.Compact) ∧
    bridgeSum 0 spans = some (total spans) ∧ total spans ≤ 9223372036854775807

theorem bridgeInterval_of_whole {text : String}
    (interval : Interval text spans []) (compact : ∀ span ∈ spans, span.Compact)
    (whole : ∀ span ∈ spans, span.Whole) (fits : total spans ≤ 9223372036854775807) :
    BridgeInterval text := by
  have sum := @bridgeSum_whole spans compact whole 0 (by omega)
  rw [Nat.zero_add] at sum
  exact .inr ⟨spans, interval, compact, sum, fits⟩

private theorem parseDuration_zero : parseDuration "0" = some 0 := rfl

/-- An interval that the API accepts is read by the bridge as the same duration
exactly when it is written so. -/
theorem parseDuration_eq_iff {humantime : String → Option Nat} (grammar : HumantimeGrammar humantime)
    {text : String} {duration : Nat} (accepted : humantime text = some duration) :
    parseDuration text = some (duration : Int) ↔ BridgeInterval text := by
  rcases grammar.accepted text duration accepted with ⟨zero, none_long⟩ |
    ⟨spans, trailing, interval, same⟩
  · rw [zero, none_long]
    exact iff_of_true parseDuration_zero (.inl rfl)
  · rw [same]
    constructor
    · intro parsed
      obtain ⟨compact, ended⟩ := compact_of_parsed interval parsed
      rw [ended] at interval
      obtain ⟨sum, fits⟩ := (parseDuration_sum_iff interval compact _).mp parsed
      exact .inr ⟨spans, interval, compact, sum, fits⟩
    · rintro (zero | ⟨others, written, compact, sum, fits⟩)
      · have long := interval.long
        rw [zero] at long
        exact absurd long (by decide)
      · have parsed := (parseDuration_sum_iff written compact _).mpr ⟨sum, fits⟩
        obtain ⟨alike, ended⟩ := compact_of_parsed interval parsed
        have texts := written.written.symm.trans interval.written
        rw [ended, List.append_nil, List.append_nil] at texts
        rw [← total_unique compact alike texts]
        exact parsed

end MigrationPlatform.Schedules
