/-
When a redacted string shows neither an e-mail address nor a long run of digits.

`to_string_pretty` writes the string with the escapes of JSON. Whether anything is left
to be found is decided by the marks alone: by what stands in front of a sign and behind
it, and by the digits behind a control character, whose escape may end with digits.
-/

import MigrationPlatform.Suggest.Redaction

namespace MigrationPlatform.Suggest

open Patterns

def isControl (c : Char) : Bool := decide (c.toNat < 32)

/-- The digits at the end of an escape, where the escape ends with digits. -/
def escapeDigits (c : Char) : List Char :=
  if c.toNat < 8 ∨ 16 ≤ c.toNat ∧ c.toNat < 26 then
    ['0', '0', Nat.digitChar (c.toNat / 16), Nat.digitChar (c.toNat % 16)]
  else []

def escapeChar (c : Char) : List Char :=
  if c = '"' then ['\\', '"']
  else if c = '\\' then ['\\', '\\']
  else if c.toNat = 0x08 then ['\\', 'b']
  else if c.toNat = 0x0C then ['\\', 'f']
  else if c = '\n' then ['\\', 'n']
  else if c = '\r' then ['\\', 'r']
  else if c = '\t' then ['\\', 't']
  else if isControl c then
    ['\\', 'u', '0', '0', Nat.digitChar (c.toNat / 16), Nat.digitChar (c.toNat % 16)]
  else [c]

def escapeText (text : List Char) : List Char := text.flatMap escapeChar

def Mark.shown : Mark → List Char
  | .char c => escapeChar c
  | .mail => emailMask
  | .phone => phoneMask

def shownText (marks : List Mark) : List Char := marks.flatMap Mark.shown

/-- The longest runs of decimal digits, each with the character in front of it. -/
def digitRuns (classes : Classes) :
    Option Char → List Char → List Char → List (Option Char × List Char)
  | before, run, [] => [(before, run)]
  | before, run, c :: rest =>
      if classes.isDecimal c then digitRuns classes before (run ++ [c]) rest
      else (before, run) :: digitRuns classes (some c) [] rest

def RunMasked (found : Option Char × List Char) : Prop :=
  9 ≤ found.2.length →
    found.2 = longDigitsMask ∨ found.1 = some '+' ∧ '+' :: found.2 = phoneMask

def RunsMasked (classes : Classes) (before : Option Char) (run text : List Char) : Prop :=
  ∀ found ∈ digitRuns classes before run text, RunMasked found

def MailsMasked (classes : Classes) (text : List Char) : Prop :=
  ∀ front middle back, text = front ++ middle ++ back →
    Matches classes.emailRe front.getLast? middle back → middle = emailMask

structure Clean (classes : Classes) (text : List Char) : Prop where
  mails : MailsMasked classes text
  runs : RunsMasked classes none [] text

variable {classes : Classes}

section Escapes

variable {c : Char}

theorem escapeChar_plain (printable : isControl c = false) (quote : c ≠ '"') (slash : c ≠ '\\') :
    escapeChar c = [c] := by
  have bound : 32 ≤ c.toNat := Nat.le_of_not_lt (of_decide_eq_false printable)
  have feed : c ≠ '\n' := fun same => absurd (same ▸ bound) (by decide)
  have turn : c ≠ '\r' := fun same => absurd (same ▸ bound) (by decide)
  have tab : c ≠ '\t' := fun same => absurd (same ▸ bound) (by decide)
  unfold escapeChar
  rw [if_neg quote, if_neg slash, if_neg (by omega), if_neg (by omega), if_neg feed, if_neg turn,
    if_neg tab, if_neg (by rw [printable]; exact Bool.false_ne_true)]

theorem forall_control {check : Char → Bool}
    (checked : (List.range 32).all (fun n => check (Char.ofNat n)) = true)
    (control : isControl c = true) : check c = true := by
  have bound := List.mem_range.mpr (of_decide_eq_true control)
  have found := List.all_eq_true.mp checked c.toNat bound
  rw [Char.ofNat_toNat] at found
  exact found

def escapesWell (c : Char) : Bool :=
  match escapeChar c with
  | first :: second :: rest =>
      first == '\\' && (second :: rest).all (fun d => d.isDigit || d.isLower)
  | _ => false

theorem exists_escape (control : isControl c = true) : ∃ tail,
    escapeChar c = '\\' :: tail ∧ tail ≠ [] ∧ ∀ d ∈ tail, (d.isDigit || d.isLower) = true := by
  have well : escapesWell c = true := forall_control (by decide) control
  unfold escapesWell at well
  split at well
  · rename_i backslash first rest printed
    rw [Bool.and_eq_true, beq_iff_eq] at well
    exact ⟨first :: rest, by rw [printed, well.1], List.cons_ne_nil _ _,
      List.all_eq_true.mp well.2⟩
  · cases well

def endsWell (c : Char) : Bool :=
  let printed := escapeChar c
  let place := printed.length - (escapeDigits c).length - 1
  let last := printed.getD place '0'
  decide (printed = printed.take place ++ last :: escapeDigits c) &&
    decide ((printed.take place).head? = some '\\') && decide (place < 9) &&
    decide (last.toNat < 128) && !last.isDigit && last != '+' &&
    (escapeDigits c).all (fun d => decide (d.toNat < 128) && d.isDigit)

theorem escapeDigits_printable (printable : isControl c = false) : escapeDigits c = [] := by
  have bound : 32 ≤ c.toNat := Nat.le_of_not_lt (of_decide_eq_false printable)
  unfold escapeDigits
  rw [if_neg (by omega)]

theorem exists_escapeDigits (other : classes.isDecimal c = false) : ∃ front last,
    escapeChar c = front ++ last :: escapeDigits c ∧ NoDigit classes front ∧ front.length < 9 ∧
      classes.isDecimal last = false ∧ (last = '+' → escapeDigits c = []) ∧
      ∀ d ∈ escapeDigits c, classes.isDecimal d = true := by
  cases control : isControl c with
  | true =>
      have well : endsWell c = true := forall_control (by decide) control
      unfold endsWell at well
      dsimp only at well
      rw [Bool.and_eq_true, Bool.and_eq_true, Bool.and_eq_true, Bool.and_eq_true,
        Bool.and_eq_true, Bool.and_eq_true, bne_iff_ne, Bool.not_eq_true'] at well
      obtain ⟨⟨⟨⟨⟨⟨split, slash⟩, short⟩, ascii⟩, nondigit⟩, unsigned⟩, digits⟩ := well
      refine ⟨_, _, of_decide_eq_true split, ?_, ?_,
        not_decimal_of_ascii (of_decide_eq_true ascii) nondigit,
        fun plus => absurd plus unsigned, ?_⟩
      · intro d head
        rw [of_decide_eq_true slash] at head
        cases head
        exact not_decimal_of_ascii (by decide) rfl
      · exact Nat.lt_of_le_of_lt (List.length_take_le _ _) (of_decide_eq_true short)
      · intro d member
        have both := List.all_eq_true.mp digits d member
        rw [Bool.and_eq_true] at both
        rw [classes.decimal_ascii d (of_decide_eq_true both.1), both.2]
  | false =>
      rw [escapeDigits_printable control]
      have backslash : NoDigit classes ['\\'] := noDigit_of_ascii (by decide) rfl
      by_cases quote : c = '"'
      · subst quote
        exact ⟨['\\'], '"', rfl, backslash, by decide, other, fun _ => rfl, List.forall_mem_nil _⟩
      · by_cases slash : c = '\\'
        · subst slash
          exact ⟨['\\'], '\\', rfl, backslash, by decide, other, fun _ => rfl,
            List.forall_mem_nil _⟩
        · rw [escapeChar_plain control quote slash]
          exact ⟨[], c, rfl, fun _ head => (by cases head), by decide, other, fun _ => rfl,
            List.forall_mem_nil _⟩

theorem ne_of_decimal {d : Char} (digit : classes.isDecimal c = true) (ascii : d.toNat < 128)
    (nondigit : d.isDigit = false) : c ≠ d := by
  intro same
  rw [same, not_decimal_of_ascii ascii nondigit] at digit
  cases digit

theorem not_control_of_decimal (digit : classes.isDecimal c = true) : isControl c = false := by
  cases control : isControl c with
  | false => rfl
  | true =>
      have bound : c.toNat < 32 := of_decide_eq_true control
      have nondigit : (!c.isDigit) = true :=
        @forall_control c (fun d => !d.isDigit) (by decide) control
      rw [Bool.not_eq_true'] at nondigit
      exact absurd rfl (ne_of_decimal digit (by omega) nondigit)

private theorem escapeChar_decimal (digit : classes.isDecimal c = true) : escapeChar c = [c] :=
  escapeChar_plain (not_control_of_decimal digit) (ne_of_decimal digit (by decide) rfl)
    (ne_of_decimal digit (by decide) rfl)

theorem not_word_of_ascii (ascii : c.toNat < 128) (other : (c.isAlphanum || c == '_') = false) :
    classes.isWord c = false := by
  rw [classes.word_ascii c ascii, other]

private theorem not_word_of_control (control : isControl c = true) : classes.isWord c = false := by
  have bound : c.toNat < 32 := of_decide_eq_true control
  have other : (!(c.isAlphanum || c == '_')) = true :=
    @forall_control c (fun d => !(d.isAlphanum || d == '_')) (by decide) control
  rw [Bool.not_eq_true'] at other
  exact not_word_of_ascii (by omega) other

theorem ascii_of_escape (plain : (c.isDigit || c.isLower) = true) : c.toNat < 128 := by
  unfold Char.isDigit Char.isLower at plain
  simp only [Bool.or_eq_true, Bool.and_eq_true, decide_eq_true_eq] at plain
  rcases plain with ⟨_, high⟩ | ⟨_, high⟩
  · exact Nat.lt_of_le_of_lt (UInt32.le_iff_toNat_le.mp high) (by decide)
  · exact Nat.lt_of_le_of_lt (UInt32.le_iff_toNat_le.mp high) (by decide)

theorem isWord_of_escape (plain : (c.isDigit || c.isLower) = true) : classes.isWord c = true := by
  rw [classes.word_ascii c (ascii_of_escape plain)]
  unfold Char.isAlphanum Char.isAlpha
  rw [Bool.or_eq_true] at plain
  rcases plain with digit | lower
  · rw [digit]
    simp
  · rw [lower]
    simp

theorem isLocal_of_escape (plain : (c.isDigit || c.isLower) = true) : isLocal c = true := by
  unfold isLocal isLetter Char.isAlpha
  rw [Bool.or_eq_true] at plain
  rcases plain with digit | lower
  · rw [digit]
    simp
  · rw [lower]
    simp

theorem slash_not_word : classes.isWord '\\' = false := not_word_of_ascii (by decide) rfl

theorem escapeChar_printable (printable : isControl c = false) :
    escapeChar c = [c] ∨ escapeChar c = ['\\', c] ∧ (c = '"' ∨ c = '\\') := by
  by_cases quote : c = '"'
  · subst quote
    exact .inr ⟨rfl, .inl rfl⟩
  · by_cases slash : c = '\\'
    · subst slash
      exact .inr ⟨rfl, .inr rfl⟩
    · exact .inl (escapeChar_plain printable quote slash)

def Escaped (c : Char) : Prop := isControl c = true ∨ c = '"' ∨ c = '\\'

theorem Escaped.not_word (escaped : Escaped c) : classes.isWord c = false := by
  rcases escaped with control | rfl | rfl
  · exact not_word_of_control control
  · exact not_word_of_ascii (by decide) rfl
  · exact slash_not_word

theorem escapeChar_local (inside : isLocal c = true) : escapeChar c = [c] := by
  cases control : isControl c with
  | true =>
      have outside : (!isLocal c) = true :=
        @forall_control c (fun d => !isLocal d) (by decide) control
      rw [inside] at outside
      cases outside
  | false =>
      rcases escapeChar_printable control with same | ⟨_, rfl | rfl⟩
      · exact same
      · exact absurd inside (by decide)
      · exact absurd inside (by decide)

theorem exists_head (c : Char) : ∃ d rest, escapeChar c = d :: rest ∧
    (d = c ∨ d = '\\' ∧ Escaped c) := by
  cases control : isControl c with
  | true =>
      obtain ⟨tail, printed, _⟩ := exists_escape control
      exact ⟨'\\', tail, printed, .inr ⟨rfl, .inl control⟩⟩
  | false =>
      rcases escapeChar_printable control with same | ⟨same, escaped⟩
      · exact ⟨c, [], same, .inl rfl⟩
      · exact ⟨'\\', [c], same, .inr ⟨rfl, .inr escaped⟩⟩

theorem escapeChar_ne_nil : escapeChar c ≠ [] := by
  obtain ⟨d, rest, printed, _⟩ := exists_head c
  rw [printed]
  exact List.cons_ne_nil _ _

end Escapes

/-! ### Runs of digits in a text -/

section Runs

variable {before : Option Char} {run text front : List Char} {c last : Char}

theorem runMasked_short (short : run.length < 9) : RunMasked (before, run) :=
  fun long => absurd long (Nat.not_le.mpr short)

private theorem runMasked_unsigned (unsigned : c ≠ '+') :
    RunMasked (some c, run) ↔ run.length < 9 ∨ run = longDigitsMask := by
  constructor
  · intro masked
    rcases Nat.lt_or_ge run.length 9 with few | many
    · exact .inl few
    · rcases masked many with zeros | ⟨same, _⟩
      · exact .inr zeros
      · exact absurd (Option.some.inj same) unsigned
  · rintro (few | zeros) long
    · exact absurd long (Nat.not_le.mpr few)
    · exact .inl zeros

theorem runsMasked_nil : RunsMasked classes before run [] ↔ RunMasked (before, run) := by
  unfold RunsMasked
  rw [digitRuns, List.forall_mem_singleton]

theorem runsMasked_digit (digit : classes.isDecimal c = true) :
    RunsMasked classes before run (c :: text) ↔ RunsMasked classes before (run ++ [c]) text := by
  unfold RunsMasked
  rw [digitRuns, if_pos digit]

theorem runsMasked_other (other : classes.isDecimal c = false) :
    RunsMasked classes before run (c :: text) ↔
      RunMasked (before, run) ∧ RunsMasked classes (some c) [] text := by
  unfold RunsMasked
  rw [digitRuns, if_neg (by rw [other]; exact Bool.false_ne_true), List.forall_mem_cons]

theorem runsMasked_plain (plain : ∀ c ∈ text, classes.isDecimal c = false)
    (short : run.length < 9) : RunsMasked classes before run text := by
  induction text generalizing before run with
  | nil => exact runsMasked_nil.mpr (runMasked_short short)
  | cons c rest ih =>
      obtain ⟨other, others⟩ := List.forall_mem_cons.mp plain
      exact (runsMasked_other other).mpr ⟨runMasked_short short, ih others (by decide)⟩

theorem runsMasked_digits (digits : ∀ c ∈ front, classes.isDecimal c = true) :
    RunsMasked classes before run (front ++ text) ↔
      RunsMasked classes before (run ++ front) text := by
  induction front generalizing run with
  | nil => rw [List.nil_append, List.append_nil]
  | cons c more ih =>
      obtain ⟨digit, others⟩ := List.forall_mem_cons.mp digits
      rw [List.cons_append, runsMasked_digit digit, ih others, List.append_assoc]
      rfl

private theorem runsMasked_few (few : run.length + front.countP classes.isDecimal < 9)
    (other : classes.isDecimal last = false) :
    RunsMasked classes before run (front ++ last :: text) ↔
      RunsMasked classes (some last) [] text := by
  induction front generalizing before run with
  | nil =>
      rw [List.nil_append, runsMasked_other other]
      exact and_iff_right (runMasked_short few)
  | cons c more ih =>
      rw [List.cons_append]
      cases decimal : classes.isDecimal c with
      | true =>
          rw [List.countP_cons_of_pos decimal] at few
          rw [runsMasked_digit decimal, ih]
          rw [List.length_append, List.length_singleton]
          omega
      | false =>
          rw [List.countP_cons_of_neg (by rw [decimal]; exact Bool.false_ne_true)] at few
          rw [runsMasked_other decimal, ih (by rw [List.length_nil]; omega)]
          exact and_iff_right (runMasked_short (by omega))

theorem runsMasked_through (begins : NoDigit classes front)
    (few : front.countP classes.isDecimal < 9) (other : classes.isDecimal last = false) :
    RunsMasked classes before run (front ++ last :: text) ↔
      RunMasked (before, run) ∧ RunsMasked classes (some last) [] text := by
  cases front with
  | nil => exact runsMasked_other other
  | cons c more =>
      have first := begins c rfl
      rw [List.countP_cons_of_neg (by rw [first]; exact Bool.false_ne_true)] at few
      rw [List.cons_append, runsMasked_other first,
        runsMasked_few (by rw [List.length_nil, Nat.zero_add]; exact few) other]

private theorem runsMasked_before (unsigned : before ≠ some '+') :
    RunsMasked classes before run text ↔ RunsMasked classes none run text := by
  have same : ∀ run, RunMasked (before, run) ↔ RunMasked (none, run) := by
    intro run
    unfold RunMasked
    dsimp only
    rw [eq_false unsigned, eq_false (Option.some_ne_none '+').symm]
  induction text generalizing run with
  | nil => rw [runsMasked_nil, runsMasked_nil, same]
  | cons c rest ih =>
      cases decimal : classes.isDecimal c with
      | true =>
          rw [runsMasked_digit decimal, runsMasked_digit decimal]
          exact ih
      | false => rw [runsMasked_other decimal, runsMasked_other decimal, same]

theorem runsMasked_break (other : classes.isDecimal c = false) (unsigned : c ≠ '+') :
    RunsMasked classes before run (front ++ c :: text) ↔
      RunsMasked classes before run front ∧ RunsMasked classes none [] text := by
  induction front generalizing before run with
  | nil =>
      rw [List.nil_append, runsMasked_other other, runsMasked_nil, runsMasked_before]
      exact fun same => unsigned (Option.some.inj same)
  | cons d more ih =>
      rw [List.cons_append]
      cases decimal : classes.isDecimal d with
      | true => rw [runsMasked_digit decimal, runsMasked_digit decimal, ih]
      | false => rw [runsMasked_other decimal, runsMasked_other decimal, ih, and_assoc]

end Runs

section ShownRuns

variable {text : List Char} {marks later : List Mark} {c : Char}

def digitsAt (classes : Classes) : List Mark → List Char
  | .char c :: later => if classes.isDecimal c then c :: digitsAt classes later else []
  | _ => []

/-- What is so after the phone pass: a phone mark ends with the last digit, and what is
left is short. -/
def Grouped (classes : Classes) : List Mark → Prop
  | [] => True
  | mark :: later => (digitsAt classes (mark :: later)).length < 9 ∧
      (mark = .phone → digitsAt classes later = []) ∧ Grouped classes later

theorem digitsAt_digit (digit : classes.isDecimal c = true) :
    digitsAt classes (.char c :: marks) = c :: digitsAt classes marks := by
  rw [digitsAt, if_pos digit]

theorem digitsAt_other (other : classes.isDecimal c = false) :
    digitsAt classes (.char c :: marks) = [] := by
  rw [digitsAt, if_neg (by rw [other]; exact Bool.false_ne_true)]

theorem digitsAt_short (grouped : Grouped classes marks) : (digitsAt classes marks).length < 9 := by
  cases marks with
  | nil => exact (by decide : 0 < 9)
  | cons mark later => exact grouped.1

theorem digitsAt_of_noDigit (reads : Reads classes text marks) (noDigit : NoDigit classes text) :
    digitsAt classes marks = [] := by
  cases reads with
  | nil => rfl
  | plain other _apart _later => exact digitsAt_other other
  | @short signed group text marks isGroup _few _stops _later =>
      cases signed with
      | true => exact digitsAt_other (not_decimal_of_ascii (by decide) rfl)
      | false => exact absurd noDigit isGroup.not_noDigit
  | long _isGroup _many _stops _later => rfl
  | mail _later => rfl

private theorem digitsAt_charMarks (ended : digitsAt classes later = []) : ∀ text : List Char,
    (digitsAt classes (charMarks text ++ later)).length ≤ text.length := by
  intro text
  induction text with
  | nil =>
      change (digitsAt classes later).length ≤ 0
      rw [ended]
      exact Nat.le_refl 0
  | cons c more ih =>
      change (digitsAt classes (.char c :: (charMarks more ++ later))).length ≤ more.length + 1
      cases decimal : classes.isDecimal c with
      | true =>
          rw [digitsAt_digit decimal, List.length_cons]
          omega
      | false =>
          rw [digitsAt_other decimal]
          exact Nat.zero_le _

private theorem grouped_charMarks (grouped : Grouped classes later)
    (ended : digitsAt classes later = []) :
    ∀ text : List Char, text.length < 9 → Grouped classes (charMarks text ++ later) := by
  intro text
  induction text with
  | nil => exact fun _ => grouped
  | cons c more ih =>
      intro few
      have all := digitsAt_charMarks ended (c :: more)
      refine ⟨Nat.lt_of_le_of_lt all few, fun impossible => (by cases impossible), ih ?_⟩
      rw [List.length_cons] at few
      omega

theorem grouped_of_reads (reads : Reads classes text marks) : Grouped classes marks := by
  induction reads with
  | nil => exact trivial
  | plain other _apart _later ih =>
      refine ⟨?_, fun impossible => (by cases impossible), ih⟩
      rw [digitsAt_other other]
      decide
  | @short signed group text marks _isGroup few stops later ih =>
      have ended := digitsAt_of_noDigit later (noDigit_of_stops stops)
      have inner := grouped_charMarks ih ended group few
      cases signed with
      | false => exact inner
      | true =>
          refine ⟨?_, fun impossible => (by cases impossible), inner⟩
          rw [digitsAt_other (not_decimal_of_ascii (by decide) rfl)]
          decide
  | long _isGroup _many stops later ih =>
      exact ⟨(by decide : 0 < 9), fun _ => digitsAt_of_noDigit later (noDigit_of_stops stops), ih⟩
  | mail _later ih => exact ⟨(by decide : 0 < 9), fun impossible => (by cases impossible), ih⟩

/-- The digits that an escape ends with and the plain digits behind it are few, or nine zeros. -/
def EscapesApart (classes : Classes) (marks : List Mark) : Prop :=
  ∀ earlier c later, marks = earlier ++ .char c :: later →
    (escapeDigits c ++ digitsAt classes later).length < 9 ∨
      escapeDigits c ++ digitsAt classes later = longDigitsMask

theorem escapesApart_cons {mark : Mark} :
    EscapesApart classes (mark :: later) ↔
      (∀ c, mark = .char c → (escapeDigits c ++ digitsAt classes later).length < 9 ∨
        escapeDigits c ++ digitsAt classes later = longDigitsMask) ∧
      EscapesApart classes later := by
  constructor
  · intro apart
    refine ⟨fun c same => apart [] c later (by rw [same]; rfl), ?_⟩
    exact fun earlier c rest split => apart (mark :: earlier) c rest (by rw [split]; rfl)
  · rintro ⟨here, others⟩ earlier c rest split
    cases earlier with
    | nil =>
        obtain ⟨same, same'⟩ := List.cons.inj split
        rw [← same']
        exact here c same
    | cons _ earlier =>
        obtain ⟨_, same⟩ := List.cons.inj split
        exact others earlier c rest same

private theorem escapesApart_char :
    EscapesApart classes (.char c :: later) ↔
      ((escapeDigits c ++ digitsAt classes later).length < 9 ∨
        escapeDigits c ++ digitsAt classes later = longDigitsMask) ∧
      EscapesApart classes later := by
  rw [escapesApart_cons]
  exact and_congr_left fun _ =>
    ⟨fun all => all c rfl, fun here d same => by cases same; exact here⟩

theorem escapesApart_other {mark : Mark} (other : ∀ c, mark ≠ .char c) :
    EscapesApart classes (mark :: later) ↔ EscapesApart classes later := by
  rw [escapesApart_cons]
  exact and_iff_right fun c same => absurd same (other c)

theorem shownText_cons (mark : Mark) (marks : List Mark) :
    shownText (mark :: marks) = mark.shown ++ shownText marks := rfl

private theorem runsMasked_mail {before : Option Char} {run : List Char} :
    RunsMasked classes before run (emailMask ++ text) ↔
      RunMasked (before, run) ∧ RunsMasked classes (some 'm') [] text := by
  have plain : ∀ d ∈ emailMask.dropLast, classes.isDecimal d = false := fun d member =>
    emailMask_plain d (List.mem_of_mem_dropLast member)
  have digitless : emailMask.dropLast.countP classes.isDecimal = 0 :=
    List.countP_eq_zero.mpr fun d member => by rw [plain d member]; exact Bool.false_ne_true
  change RunsMasked classes before run (emailMask.dropLast ++ 'm' :: text) ↔ _
  exact runsMasked_through (fun d head => plain d (List.mem_of_mem_head? head))
    (by rw [digitless]; decide) (not_decimal_of_ascii (by decide) rfl)

private theorem runsMasked_phone {before : Option Char} {run : List Char} :
    RunsMasked classes before run (phoneMask ++ text) ↔
      RunMasked (before, run) ∧ RunsMasked classes (some '+') phoneDigits text := by
  change RunsMasked classes before run ('+' :: (phoneDigits ++ text)) ↔ _
  rw [runsMasked_other (not_decimal_of_ascii (by decide) rfl), runsMasked_digits phoneDigits_digits,
    List.nil_append]

private theorem runsMasked_escape {before : Option Char} {run : List Char}
    (other : classes.isDecimal c = false) : ∃ last, (last = '+' → escapeDigits c = []) ∧
      (RunsMasked classes before run (escapeChar c ++ text) ↔
        RunMasked (before, run) ∧ RunsMasked classes (some last) (escapeDigits c) text) := by
  obtain ⟨front, last, printed, begins, few, nondigit, signed, digits⟩ := exists_escapeDigits other
  have fewer := Nat.lt_of_le_of_lt (List.countP_le_length (p := classes.isDecimal)) few
  refine ⟨last, signed, ?_⟩
  rw [printed, List.append_assoc, List.cons_append, runsMasked_through begins fewer nondigit,
    runsMasked_digits digits, List.nil_append]

theorem runsMasked_shownText : ∀ marks : List Mark, Grouped classes marks → ∀ before run,
    RunsMasked classes before run (shownText marks) ↔
      RunMasked (before, run ++ digitsAt classes marks) ∧ EscapesApart classes marks := by
  intro marks
  induction marks with
  | nil =>
      intro _ before run
      have apart : EscapesApart classes [] := by
        intro earlier c later split
        cases earlier <;> cases split
      rw [show digitsAt classes [] = [] from rfl, List.append_nil, and_iff_left apart]
      exact runsMasked_nil
  | cons mark later ih =>
      intro grouped before run
      have short := digitsAt_short grouped.2.2
      rw [shownText_cons]
      cases mark with
      | mail =>
          change RunsMasked classes before run (emailMask ++ shownText later) ↔ _
          rw [runsMasked_mail, ih grouped.2.2, List.nil_append,
            and_iff_right (runMasked_short short), escapesApart_other (fun _ same => by cases same)]
          rw [show digitsAt classes (.mail :: later) = [] from rfl, List.append_nil]
      | phone =>
          have masked : RunMasked (some '+', phoneDigits) := fun _ => .inr ⟨rfl, rfl⟩
          change RunsMasked classes before run (phoneMask ++ shownText later) ↔ _
          rw [runsMasked_phone, ih grouped.2.2, grouped.2.1 rfl, List.append_nil,
            and_iff_right masked, escapesApart_other (fun _ same => by cases same)]
          rw [show digitsAt classes (.phone :: later) = [] from rfl, List.append_nil]
      | char c =>
          change RunsMasked classes before run (escapeChar c ++ shownText later) ↔ _
          rw [escapesApart_char]
          cases decimal : classes.isDecimal c with
          | true =>
              rw [escapeChar_decimal decimal, List.singleton_append, runsMasked_digit decimal,
                ih grouped.2.2, digitsAt_digit decimal, List.append_assoc,
                escapeDigits_printable (not_control_of_decimal decimal), List.nil_append,
                and_iff_right (Or.inl short)]
              rfl
          | false =>
              obtain ⟨last, signed, masked⟩ :=
                @runsMasked_escape classes (shownText later) c before run decimal
              have here : RunMasked (some last, escapeDigits c ++ digitsAt classes later) ↔
                  (escapeDigits c ++ digitsAt classes later).length < 9 ∨
                    escapeDigits c ++ digitsAt classes later = longDigitsMask := by
                by_cases plus : last = '+'
                · rw [signed plus, List.nil_append]
                  exact iff_of_true (runMasked_short short) (.inl short)
                · exact runMasked_unsigned plus
              rw [masked, digitsAt_other decimal, List.append_nil, ih grouped.2.2, here]

end ShownRuns

end MigrationPlatform.Suggest
