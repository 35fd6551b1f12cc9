/-
When nothing is found in a redacted string, said of its marks.

The e-mail addresses of the printed string are those around a sign that the passes have
left and those around the sign of a mask. They are read off what stands next to it: the
last names in front of it and the first hosts behind it.
-/

import MigrationPlatform.Suggest.RedactedMails

namespace MigrationPlatform.Suggest

open Patterns

variable {classes : Classes}

/-- Whether what is printed for the mark ends with a character of a word. -/
def Mark.endsWord (classes : Classes) : Mark → Bool
  | .char c => isControl c || classes.isWord c
  | _ => true

def Mark.startsWord (classes : Classes) : Mark → Bool
  | .char c => classes.isWord c
  | .mail => true
  | .phone => false

/-- Whether a name ends behind the marks, of which the last one is given first. -/
def nameBehind (classes : Classes) : List Mark → Bool
  | [] => false
  | .char c :: earlier =>
      isControl c || isLocal c &&
        ((earlier.head?.any (Mark.endsWord classes) != classes.isWord c) ||
          nameBehind classes earlier)
  | _ => true

def named (classes : Classes) (marks : List Mark) : Bool := nameBehind classes marks.reverse

def lettersAt (classes : Classes) : Nat → List Mark → Bool
  | read, [] => decide (2 ≤ read)
  | read, .char c :: later =>
      if isLetter c then lettersAt classes (read + 1) later
      else decide (2 ≤ read) && !classes.isWord c
  | read, .phone :: _ => decide (2 ≤ read)
  | _, .mail :: _ => true

def hostGoesOn (classes : Classes) : List Mark → Bool
  | .char c :: later =>
      isDomain c && (c == '.' && lettersAt classes 0 later || hostGoesOn classes later)
  | _ => false

def hosted (classes : Classes) : List Mark → Bool
  | .char c :: later => isDomain c && hostGoesOn classes later
  | _ => false

def lengthensHost (classes : Classes) (marks : List Mark) : Bool :=
  hostGoesOn classes marks ||
    match marks with
    | .char c :: later => isLetter c && lettersAt classes 4 later
    | .mail :: _ => true
    | _ => false

/-- A mask with the marks on its sides: where its name is lengthened no host is found, and
where its host is lengthened no name. -/
structure StandsApart (classes : Classes) (earlier later : List Mark) : Prop where
  name : named classes earlier = true → lengthensHost classes later = false ∧
    later.head?.any (Mark.startsWord classes) = true
  host : lengthensHost classes later = true → named classes earlier = false ∧
    earlier.getLast?.any (Mark.endsWord classes) = true

/-- A sign that belongs to no mask, unless what is around it spells one out. -/
def SignApart (classes : Classes) (earlier later : List Mark) : Prop :=
  named classes earlier = false ∨ hosted classes later = false ∨
    ∃ front back, earlier = front ++ charMarks userMask ∧ later = charMarks hostMask ++ back ∧
      StandsApart classes front back

/-- The marks of a string in which nothing is found when it has been redacted. -/
structure Quiet (classes : Classes) (marks : List Mark) : Prop where
  masks : ∀ earlier later, marks = earlier ++ .mail :: later → StandsApart classes earlier later
  signs : ∀ earlier later, marks = earlier ++ .char '@' :: later →
    SignApart classes earlier later
  escapes : EscapesApart classes marks

section Printed

variable {mark : Mark}

theorem shownText_append (front back : List Mark) :
    shownText (front ++ back) = shownText front ++ shownText back := List.flatMap_append

theorem shownText_singleton (mark : Mark) : shownText [mark] = mark.shown :=
  List.flatMap_singleton _ _

theorem shown_last : mark.shown.getLast?.any classes.isWord = mark.endsWord classes := by
  have ascii : ∀ d : Char, d.toNat < 128 → (d.isAlphanum || d == '_') = true →
      classes.isWord d = true := fun d bound word => by rw [classes.word_ascii d bound, word]
  cases mark with
  | mail => exact ascii 'm' (by decide) rfl
  | phone => exact ascii '0' (by decide) rfl
  | char c =>
      change (escapeChar c).getLast?.any classes.isWord = (isControl c || classes.isWord c)
      cases control : isControl c with
      | true =>
          obtain ⟨tail, printed, nonempty, plain⟩ := exists_escape control
          rw [printed, List.getLast?_cons_of_ne_nil nonempty,
            List.getLast?_eq_some_getLast nonempty, Option.any_some, Bool.true_or]
          exact isWord_of_escape (plain _ (List.getLast_mem nonempty))
      | false =>
          rcases escapeChar_printable control with same | ⟨same, _⟩
          · rw [same]
            rfl
          · rw [same]
            rfl

theorem shown_first : mark.shown.head?.any classes.isWord = mark.startsWord classes := by
  cases mark with
  | mail => exact (classes.word_ascii 'u' (by decide)).trans rfl
  | phone => exact not_word_of_ascii (by decide) rfl
  | char c =>
      change (escapeChar c).head?.any classes.isWord = classes.isWord c
      obtain ⟨d, rest, printed, rfl | ⟨rfl, escaped⟩⟩ := exists_head c
      · rw [printed]
        rfl
      · rw [printed, escaped.not_word]
        exact slash_not_word

theorem shown_ne_nil : mark.shown ≠ [] := by
  cases mark with
  | mail => exact List.cons_ne_nil _ _
  | phone => exact List.cons_ne_nil _ _
  | char c => exact escapeChar_ne_nil

theorem shownText_last (marks : List Mark) :
    (shownText marks).getLast?.any classes.isWord =
      marks.getLast?.any (Mark.endsWord classes) := by
  rcases List.eq_nil_or_concat marks with empty | ⟨front, mark, ending⟩
  · rw [empty]
    rfl
  · rw [ending, List.concat_eq_append, shownText_append, shownText_singleton,
      List.getLast?_append_of_ne_nil _ shown_ne_nil, shown_last, List.getLast?_concat,
      Option.any_some]

private theorem shownText_first (marks : List Mark) :
    (shownText marks).head?.any classes.isWord = marks.head?.any (Mark.startsWord classes) := by
  cases marks with
  | nil => rfl
  | cons mark later =>
      rw [shownText_cons, List.head?_append_of_ne_nil _ shown_ne_nil, shown_first, List.head?_cons,
        Option.any_some]

end Printed

section Names

variable {left : List Char} {c : Char}

private theorem exists_nameEnds_mail : ∃ name, NameEnds classes (left ++ emailMask) name := by
  have word : classes.isWord 'c' = true := (classes.word_ascii 'c' (by decide)).trans rfl
  have found := @nameEnds_word classes (left ++ "user@example".toList) ['c', 'o', 'm'] '.'
    (List.cons_ne_nil _ _) (List.all_eq_true.mp (by decide)) word
    (not_word_of_ascii (by decide) rfl)
  rw [List.append_assoc] at found
  exact ⟨_, found⟩

private theorem exists_nameEnds_phone : ∃ name, NameEnds classes (left ++ phoneMask) name := by
  have word : classes.isWord '1' = true := (classes.word_ascii '1' (by decide)).trans rfl
  exact ⟨_, @nameEnds_word classes left phoneDigits '+' (List.cons_ne_nil _ _)
    (List.all_eq_true.mp (by decide)) word (not_word_of_ascii (by decide) rfl)⟩

private theorem exists_nameEnds_control (control : isControl c = true) :
    ∃ name, NameEnds classes (left ++ escapeChar c) name := by
  obtain ⟨tail, printed, nonempty, plain⟩ := exists_escape control
  rw [printed]
  refine ⟨tail, nameEnds_word nonempty (fun d member => isLocal_of_escape (plain d member)) ?_
    slash_not_word⟩
  cases tail with
  | nil => exact absurd rfl nonempty
  | cons d more => exact isWord_of_escape (plain d List.mem_cons_self)

theorem nameBehind_iff (behind : List Mark) :
    nameBehind classes behind = true ↔
      ∃ name, NameEnds classes (shownText behind.reverse) name := by
  induction behind with
  | nil =>
      refine iff_of_false Bool.false_ne_true ?_
      rintro ⟨name, front, split, isName⟩
      exact isName.nonempty (List.append_eq_nil_iff.mp split.symm).2
  | cons mark earlier ih =>
      rw [List.reverse_cons, shownText_append, shownText_singleton]
      cases mark with
      | mail => exact iff_of_true rfl exists_nameEnds_mail
      | phone => exact iff_of_true rfl exists_nameEnds_phone
      | char c =>
          rw [nameBehind]
          change _ ↔ ∃ name, NameEnds classes (shownText earlier.reverse ++ escapeChar c) name
          cases control : isControl c with
          | true => exact iff_of_true rfl (exists_nameEnds_control control)
          | false =>
              rw [Bool.false_or, Bool.and_eq_true]
              cases inside : isLocal c with
              | false =>
                  refine iff_of_false (fun both => Bool.false_ne_true both.1) ?_
                  rintro ⟨name, found⟩
                  rcases escapeChar_printable control with same | ⟨same, _⟩
                  · rw [same] at found
                    exact not_nameEnds inside found
                  · rw [same, List.append_cons] at found
                    exact not_nameEnds inside found
              | true =>
                  have boundary : isBoundary classes.isWord
                      (shownText earlier.reverse).getLast? (some c) =
                      (earlier.head?.any (Mark.endsWord classes) != classes.isWord c) := by
                    unfold isBoundary
                    rw [shownText_last, List.getLast?_reverse, Option.any_some]
                  rw [escapeChar_local inside, exists_nameEnds_local inside, boundary, ← ih,
                    Bool.or_eq_true]
                  exact and_iff_right rfl

theorem named_iff (marks : List Mark) :
    named classes marks = true ↔ ∃ name, NameEnds classes (shownText marks) name := by
  unfold named
  rw [nameBehind_iff, List.reverse_reverse]

end Names

section Hosts

variable {text : List Char} {c : Char} {read : Nat}

private theorem lettersEnd_shown (other : isLetter c = false) :
    LettersEnd classes read (escapeChar c ++ text) ↔ 2 ≤ read ∧ classes.isWord c = false := by
  obtain ⟨d, rest, printed, rfl | ⟨rfl, escaped⟩⟩ := exists_head c
  · rw [printed]
    exact lettersEnd_other other
  · rw [printed, List.cons_append, lettersEnd_other (by decide), escaped.not_word]
    exact and_congr_right fun _ => iff_of_true slash_not_word rfl

theorem lettersAt_iff (marks : List Mark) : ∀ read,
    lettersAt classes read marks = true ↔ LettersEnd classes read (shownText marks) := by
  induction marks with
  | nil =>
      intro read
      rw [lettersAt, decide_eq_true_iff]
      exact lettersEnd_nil.symm
  | cons mark later ih =>
      intro read
      rw [shownText_cons]
      cases mark with
      | mail =>
          change _ ↔ LettersEnd classes read ('u' :: 's' :: 'e' :: 'r' :: '@' :: (hostMask ++ _))
          rw [lettersEnd_letter (by decide), lettersEnd_letter (by decide),
            lettersEnd_letter (by decide), lettersEnd_letter (by decide),
            lettersEnd_other (by decide)]
          exact iff_of_true rfl ⟨by omega, not_word_of_ascii (by decide) rfl⟩
      | phone =>
          change _ ↔ LettersEnd classes read ('+' :: (phoneDigits ++ _))
          rw [lettersAt, decide_eq_true_iff, lettersEnd_other (by decide)]
          exact (and_iff_left (not_word_of_ascii (by decide) rfl)).symm
      | char c =>
          change _ ↔ LettersEnd classes read (escapeChar c ++ _)
          rw [lettersAt]
          cases letter : isLetter c with
          | true =>
              rw [if_pos rfl, ih, escapeChar_local (isLocal_of_domain (isDomain_of_letter letter)),
                List.singleton_append, lettersEnd_letter letter]
          | false =>
              rw [if_neg Bool.false_ne_true, lettersEnd_shown letter, Bool.and_eq_true,
                decide_eq_true_iff, Bool.not_eq_true']

theorem exists_outside (outside : isDomain c = false) : ∃ d rest,
    escapeChar c = d :: rest ∧ isDomain d = false := by
  obtain ⟨d, rest, printed, rfl | ⟨rfl, _⟩⟩ := exists_head c
  · exact ⟨d, rest, printed, outside⟩
  · exact ⟨'\\', rest, printed, by decide⟩

private theorem hostRest_shown (outside : isDomain c = false) :
    ¬HostRest classes (escapeChar c ++ text) := by
  obtain ⟨d, rest, printed, outside⟩ := exists_outside outside
  rw [printed]
  exact not_hostRest outside

theorem not_hostRest_mail : ¬HostRest classes ('s' :: 'e' :: 'r' :: '@' :: text) :=
  not_hostRest_step (by decide) (not_hostRest_step (by decide)
    (not_hostRest_step (by decide) (not_hostRest (by decide))))

theorem hostGoesOn_iff (marks : List Mark) :
    hostGoesOn classes marks = true ↔ HostRest classes (shownText marks) := by
  induction marks with
  | nil => exact iff_of_false Bool.false_ne_true not_hostRest_nil
  | cons mark later ih =>
      rw [shownText_cons]
      cases mark with
      | mail =>
          exact iff_of_false Bool.false_ne_true
            (not_hostRest_step (by decide) not_hostRest_mail)
      | phone => exact iff_of_false Bool.false_ne_true (not_hostRest (by decide))
      | char c =>
          change _ ↔ HostRest classes (escapeChar c ++ _)
          rw [hostGoesOn]
          cases inside : isDomain c with
          | true =>
              rw [Bool.true_and, Bool.or_eq_true, Bool.and_eq_true, beq_iff_eq, lettersAt_iff, ih,
                escapeChar_local (isLocal_of_domain inside), List.singleton_append, hostRest_cons]
              exact (and_iff_right inside).symm
          | false => exact iff_of_false Bool.false_ne_true (hostRest_shown inside)

theorem hosted_iff (marks : List Mark) :
    hosted classes marks = true ↔ ∃ host, HostBegins classes (shownText marks) host := by
  cases marks with
  | nil =>
      refine iff_of_false Bool.false_ne_true ?_
      rintro ⟨host, found⟩
      exact not_hostBegins_nil found
  | cons mark later =>
      rw [shownText_cons]
      cases mark with
      | mail =>
          change _ ↔ ∃ host, HostBegins classes ('u' :: 's' :: 'e' :: 'r' :: '@' :: _) host
          rw [exists_hostBegins]
          exact iff_of_false Bool.false_ne_true fun both => not_hostRest_mail both.2
      | phone =>
          change _ ↔ ∃ host, HostBegins classes ('+' :: (phoneDigits ++ _)) host
          rw [exists_hostBegins]
          exact iff_of_false Bool.false_ne_true fun both => absurd both.1 (by decide)
      | char c =>
          change _ ↔ ∃ host, HostBegins classes (escapeChar c ++ _) host
          rw [hosted]
          cases inside : isDomain c with
          | true =>
              rw [Bool.true_and, hostGoesOn_iff, escapeChar_local (isLocal_of_domain inside),
                List.singleton_append, exists_hostBegins]
              exact (and_iff_right inside).symm
          | false =>
              refine iff_of_false Bool.false_ne_true ?_
              rintro ⟨host, found⟩
              obtain ⟨d, rest, printed, outside⟩ := exists_outside inside
              rw [printed, List.cons_append] at found
              have both := exists_hostBegins.mp ⟨host, found⟩
              rw [outside] at both
              exact Bool.false_ne_true both.1

theorem lengthensHost_iff (marks : List Mark) :
    lengthensHost classes marks = true ↔
      ∃ host, HostBegins classes (hostMask ++ shownText marks) host ∧ host ≠ hostMask := by
  rw [exists_longer_host]
  unfold lengthensHost
  rw [Bool.or_eq_true, hostGoesOn_iff]
  refine or_congr_right ?_
  cases marks with
  | nil =>
      refine iff_of_false Bool.false_ne_true ?_
      rintro ⟨c, rest, split, _⟩
      cases split
  | cons mark later =>
      rw [shownText_cons]
      cases mark with
      | mail =>
          have letters : LettersEnd classes 4 ('s' :: 'e' :: 'r' :: '@' ::
              (hostMask ++ shownText later)) := by
            rw [lettersEnd_letter (by decide), lettersEnd_letter (by decide),
              lettersEnd_letter (by decide), lettersEnd_other (by decide)]
            exact ⟨by omega, not_word_of_ascii (by decide) rfl⟩
          exact iff_of_true rfl ⟨'u', _, rfl, by decide, letters⟩
      | phone =>
          refine iff_of_false Bool.false_ne_true ?_
          rintro ⟨c, rest, split, letter, _⟩
          obtain ⟨rfl, _⟩ := List.cons.inj split
          exact absurd letter (by decide)
      | char c =>
          change (isLetter c && lettersAt classes 4 later) = true ↔
            LettersGoOn classes (escapeChar c ++ shownText later)
          cases letter : isLetter c with
          | true =>
              rw [Bool.true_and, lettersAt_iff,
                escapeChar_local (isLocal_of_domain (isDomain_of_letter letter))]
              constructor
              · exact fun found => ⟨c, _, rfl, letter, found⟩
              · rintro ⟨d, rest, split, _, found⟩
                have same : shownText later = rest := (List.cons.inj split).2
                rw [same]
                exact found
          | false =>
              refine iff_of_false Bool.false_ne_true ?_
              rintro ⟨d, rest, split, first, _⟩
              obtain ⟨e, more, printed, begins⟩ := exists_head c
              rw [printed] at split
              obtain ⟨rfl, _⟩ := List.cons.inj split
              rcases begins with rfl | ⟨rfl, _⟩
              · rw [letter] at first
                cases first
              · exact absurd first (by decide)

end Hosts

/-! ### Signs -/

section Signs

variable {earlier later marks : List Mark} {front text left right word : List Char} {c : Char}

private theorem userMask_ne_nil : userMask ≠ [] := List.cons_ne_nil _ _

theorem userMask_isLocal : ∀ d ∈ userMask, isLocal d = true := List.all_eq_true.mp (by decide)

private theorem userMask_isWord : ∀ d ∈ userMask, classes.isWord d = true := by
  intro d member
  have plain : userMask.all (fun d => d.isDigit || d.isLower) = true := by decide
  exact isWord_of_escape (List.all_eq_true.mp plain d member)

theorem nameEnds_mask {name : List Char} :
    NameEnds classes (shownText earlier ++ userMask) name ↔
      name = userMask ∧ earlier.getLast?.any (Mark.endsWord classes) = false ∨
        ∃ shorter, name = shorter ++ userMask ∧ NameEnds classes (shownText earlier) shorter := by
  rw [nameEnds_append userMask_ne_nil userMask_isLocal userMask_isWord, shownText_last]

theorem hostBegins_shownMask :
    HostBegins classes (hostMask ++ shownText later) hostMask ↔
      later.head?.any (Mark.startsWord classes) = false := by
  rw [hostBegins_mask, shownText_first]

private theorem masked_of_standsApart {name host : List Char}
    (apart : StandsApart classes earlier later)
    (nameEnds : NameEnds classes (shownText earlier ++ userMask) name)
    (hostBegins : HostBegins classes (hostMask ++ shownText later) host) :
    name = userMask ∧ host = hostMask := by
  have longer : host ≠ hostMask → lengthensHost classes later = true := fun other =>
    (lengthensHost_iff later).mpr ⟨host, hostBegins, other⟩
  rcases nameEnds_mask.mp nameEnds with ⟨same, begins⟩ | ⟨shorter, _, found⟩
  · refine ⟨same, ?_⟩
    by_contra other
    have ends := (apart.host (longer other)).2
    rw [begins] at ends
    cases ends
  · obtain ⟨kept, starts⟩ := apart.name ((named_iff earlier).mpr ⟨shorter, found⟩)
    by_cases same : host = hostMask
    · rw [same, hostBegins_shownMask, starts] at hostBegins
      cases hostBegins
    · rw [longer same] at kept
      cases kept

theorem standsApart_iff :
    StandsApart classes earlier later ↔ ∀ name host,
      NameEnds classes (shownText earlier ++ userMask) name →
        HostBegins classes (hostMask ++ shownText later) host →
          name = userMask ∧ host = hostMask := by
  constructor
  · exact fun apart name host => masked_of_standsApart apart
  · intro masked
    constructor
    · intro found
      obtain ⟨shorter, nameEnds⟩ := (named_iff earlier).mp found
      have hostless : ∀ host, ¬HostBegins classes (hostMask ++ shownText later) host := by
        intro host hostBegins
        have same :=
          (masked _ host (nameEnds_mask.mpr (.inr ⟨shorter, rfl, nameEnds⟩)) hostBegins).1
        obtain ⟨_, _, isName⟩ := nameEnds
        exact isName.nonempty (List.append_left_eq_self.mp same)
      constructor
      · rw [← Bool.not_eq_true, lengthensHost_iff]
        rintro ⟨host, hostBegins, _⟩
        exact hostless host hostBegins
      · rw [← Bool.not_eq_false, ← hostBegins_shownMask]
        exact hostless hostMask
    · intro found
      obtain ⟨host, hostBegins, other⟩ := (lengthensHost_iff later).mp found
      have nameless : ∀ name, ¬NameEnds classes (shownText earlier ++ userMask) name :=
        fun name nameEnds => other (masked name host nameEnds hostBegins).2
      constructor
      · rw [← Bool.not_eq_true, named_iff]
        rintro ⟨shorter, nameEnds⟩
        exact nameless _ (nameEnds_mask.mpr (.inr ⟨shorter, rfl, nameEnds⟩))
      · rw [← Bool.not_eq_false]
        exact fun begins => nameless _ (nameEnds_mask.mpr (.inl ⟨rfl, begins⟩))

theorem shown_charMarks (inside : ∀ d ∈ word, isLocal d = true) :
    shownText (charMarks word) = word := by
  induction word with
  | nil => rfl
  | cons c more ih =>
      obtain ⟨first, others⟩ := List.forall_mem_cons.mp inside
      change escapeChar c ++ shownText (charMarks more) = c :: more
      rw [escapeChar_local first, ih others, List.singleton_append]

theorem marks_of_front (outside : ∀ d ∈ word, d ≠ 'u' ∧ d ≠ '+' ∧ d ≠ '\\') :
    ∀ marks : List Mark, shownText marks = word ++ text →
      ∃ later, marks = charMarks word ++ later := by
  induction word with
  | nil => exact fun marks _ => ⟨marks, rfl⟩
  | cons c more ih =>
      obtain ⟨⟨notMail, notPhone, notSlash⟩, others⟩ := List.forall_mem_cons.mp outside
      intro marks printed
      cases marks with
      | nil => cases printed
      | cons mark later =>
          rw [shownText_cons, List.cons_append] at printed
          cases mark with
          | mail => exact absurd (List.cons.inj printed).1.symm notMail
          | phone => exact absurd (List.cons.inj printed).1.symm notPhone
          | char d =>
              change escapeChar d ++ _ = _ at printed
              cases control : isControl d with
              | true =>
                  obtain ⟨tail, escape, _⟩ := exists_escape control
                  rw [escape] at printed
                  exact absurd (List.cons.inj printed).1.symm notSlash
              | false =>
                  rcases escapeChar_printable control with same | ⟨same, _⟩
                  · rw [same] at printed
                    obtain ⟨rfl, remaining⟩ := List.cons.inj printed
                    obtain ⟨rest, same'⟩ := ih others later remaining
                    exact ⟨rest, by rw [same']; rfl⟩
                  · rw [same] at printed
                    exact absurd (List.cons.inj printed).1.symm notSlash

theorem mark_of_back (unfit : c ≠ 'm' ∧ c ≠ '0' ∧ c ≠ '"' ∧ c ≠ '\\') (slash : '\\' ∉ word)
    (controls : ∀ d, isControl d = true → ¬(word ++ [c]) <:+ escapeChar d)
    (printed : shownText marks = front ++ (word ++ [c])) :
    ∃ earlier, marks = earlier ++ [.char c] ∧ shownText earlier = front ++ word := by
  obtain ⟨notMail, notPhone, notQuote, notSlash⟩ := unfit
  rw [← List.append_assoc] at printed
  rcases List.eq_nil_or_concat marks with empty | ⟨earlier, mark, ending⟩
  · rw [empty] at printed
    exact absurd printed.symm (List.append_ne_nil_of_right_ne_nil _ (List.cons_ne_nil _ _))
  · rw [List.concat_eq_append] at ending
    rw [ending, shownText_append, shownText_singleton] at printed
    have last := congrArg List.getLast? printed
    rw [List.getLast?_append_of_ne_nil _ shown_ne_nil, List.getLast?_concat] at last
    cases mark with
    | mail => exact absurd (Option.some.inj last).symm notMail
    | phone => exact absurd (Option.some.inj last).symm notPhone
    | char d =>
        change shownText earlier ++ escapeChar d = _ at printed
        change (escapeChar d).getLast? = _ at last
        cases control : isControl d with
        | true =>
            have ends : (word ++ [c]) <:+ shownText earlier ++ escapeChar d := by
              rw [printed, List.append_assoc]
              exact List.suffix_append _ _
            rcases List.suffix_or_suffix_of_suffix ends (List.suffix_append _ _) with short | long
            · exact absurd short (controls d control)
            · obtain ⟨tail, escape, _⟩ := exists_escape control
              have member : '\\' ∈ word ++ [c] := by
                apply long.subset
                rw [escape]
                exact List.mem_cons_self
              rcases List.mem_append.mp member with inside | same
              · exact absurd inside slash
              · exact absurd (List.mem_singleton.mp same).symm notSlash
        | false =>
            rcases escapeChar_printable control with same | ⟨same, escaped⟩
            · rw [same] at printed
              obtain ⟨same', lastSame⟩ := List.append_inj' printed rfl
              cases lastSame
              exact ⟨earlier, ending, same'⟩
            · rw [same] at last
              have equal : d = c := Option.some.inj last
              rcases escaped with rfl | rfl
              · exact absurd equal.symm notQuote
              · exact absurd equal.symm notSlash

private theorem marks_of_user (printed : shownText marks = front ++ userMask) :
    ∃ earlier, marks = earlier ++ charMarks userMask := by
  have controls : ∀ (word : List Char),
      (List.range 32).all (fun n => !word.isSuffixOf (escapeChar (Char.ofNat n))) = true →
      ∀ d, isControl d = true → ¬word <:+ escapeChar d := by
    intro word checked d control ends
    have found : (!word.isSuffixOf (escapeChar d)) = true :=
      @forall_control d (fun d => !word.isSuffixOf (escapeChar d)) checked control
    rw [List.isSuffixOf_iff_suffix.mpr ends] at found
    cases found
  obtain ⟨use, last, printed⟩ := @mark_of_back marks front ['u', 's', 'e'] 'r' (by decide)
    (by decide) (controls _ (by decide)) printed
  obtain ⟨us, third, printed⟩ := @mark_of_back use front ['u', 's'] 'e' (by decide)
    (by decide) (controls _ (by decide)) printed
  obtain ⟨u, second, printed⟩ := @mark_of_back us front ['u'] 's' (by decide)
    (by decide) (controls _ (by decide)) printed
  obtain ⟨earlier, start, _⟩ := @mark_of_back u front [] 'u' (by decide)
    (by decide) (controls _ (by decide)) printed
  refine ⟨earlier, ?_⟩
  rw [last, third, second, start, List.append_assoc, List.append_assoc, List.append_assoc]
  rfl

private theorem hostMask_outside : ∀ d ∈ hostMask, d ≠ 'u' ∧ d ≠ '+' ∧ d ≠ '\\' := by
  intro d member
  have checked : hostMask.all (fun d => d != 'u' && d != '+' && d != '\\') = true := by decide
  have all := List.all_eq_true.mp checked d member
  rw [Bool.and_eq_true, Bool.and_eq_true, bne_iff_ne, bne_iff_ne, bne_iff_ne, and_assoc] at all
  exact all

theorem signApart_iff :
    SignApart classes earlier later ↔ ∀ name host, NameEnds classes (shownText earlier) name →
      HostBegins classes (shownText later) host → name = userMask ∧ host = hostMask := by
  have spelled : ∀ front back, earlier = front ++ charMarks userMask →
      later = charMarks hostMask ++ back → (StandsApart classes front back ↔
        ∀ name host, NameEnds classes (shownText earlier) name →
          HostBegins classes (shownText later) host → name = userMask ∧ host = hostMask) := by
    intro front back same same'
    rw [standsApart_iff, same, same', shownText_append, shownText_append,
      shown_charMarks userMask_isLocal,
      shown_charMarks (fun d member => isLocal_of_domain (hostMask_isDomain d member))]
  constructor
  · rintro (nameless | hostless | ⟨front, back, same, same', apart⟩)
    · intro name host nameEnds _
      rw [(named_iff earlier).mpr ⟨name, nameEnds⟩] at nameless
      cases nameless
    · intro name host _ hostBegins
      rw [(hosted_iff later).mpr ⟨host, hostBegins⟩] at hostless
      cases hostless
    · exact (spelled front back same same').mp apart
  · intro masked
    cases found : named classes earlier with
    | false => exact .inl found
    | true =>
        cases found' : hosted classes later with
        | false => exact .inr (.inl found')
        | true =>
            obtain ⟨name, nameEnds⟩ := (named_iff earlier).mp found
            obtain ⟨host, hostBegins⟩ := (hosted_iff later).mp found'
            obtain ⟨sameName, sameHost⟩ := masked name host nameEnds hostBegins
            obtain ⟨before, printed, _⟩ := nameEnds
            obtain ⟨domain, letters, behind, _, printed', _⟩ := hostBegins
            rw [sameName] at printed
            rw [sameHost] at printed'
            obtain ⟨front, same⟩ := marks_of_user printed
            obtain ⟨back, same'⟩ := marks_of_front hostMask_outside later printed'
            exact .inr (.inr ⟨front, back, same, same', (spelled front back same same').mpr masked⟩)

theorem sign_behind (absent : '@' ∉ front) (split : front ++ text = left ++ '@' :: right) :
    ∃ more, left = front ++ more ∧ text = more ++ '@' :: right := by
  rcases List.append_eq_append_iff.mp split with ⟨more, same, others⟩ | ⟨more, same, others⟩
  · exact ⟨more, same, others⟩
  · cases more with
    | nil =>
        rw [List.append_nil] at same
        exact ⟨[], by rw [same, List.append_nil], others.symm⟩
    | cons d more =>
        obtain ⟨rfl, _⟩ := List.cons.inj others
        exact absurd (by rw [same]; exact List.mem_append_right _ List.mem_cons_self) absent

private theorem sign_notMem_escapeChar (other : c ≠ '@') : '@' ∉ escapeChar c := by
  intro member
  cases control : isControl c with
  | true =>
      have absent : (!(escapeChar c).contains '@') = true :=
        @forall_control c (fun d => !(escapeChar d).contains '@') (by decide) control
      rw [List.contains_iff_mem.mpr member] at absent
      cases absent
  | false =>
      rcases escapeChar_printable control with same | ⟨same, _⟩
      · rw [same, List.mem_singleton] at member
        exact other member.symm
      · rw [same, List.mem_cons, List.mem_singleton] at member
        rcases member with impossible | same'
        · cases impossible
        · exact other same'.symm

theorem exists_of_sign : ∀ (marks : List Mark) (left : List Char),
    shownText marks = left ++ '@' :: right →
      (∃ earlier later, marks = earlier ++ .mail :: later ∧
        left = shownText earlier ++ userMask ∧ right = hostMask ++ shownText later) ∨
      ∃ earlier later, marks = earlier ++ .char '@' :: later ∧
        left = shownText earlier ∧ right = shownText later := by
  intro marks
  induction marks with
  | nil =>
      intro left split
      cases left <;> cases split
  | cons mark others ih =>
      have further : ∀ left more, left = mark.shown ++ more →
          shownText others = more ++ '@' :: right →
          (∃ earlier later, mark :: others = earlier ++ .mail :: later ∧
            left = shownText earlier ++ userMask ∧ right = hostMask ++ shownText later) ∨
          ∃ earlier later, mark :: others = earlier ++ .char '@' :: later ∧
            left = shownText earlier ∧ right = shownText later := by
        intro left more whole split
        rcases ih more split with ⟨earlier, later, same, left', right'⟩ |
          ⟨earlier, later, same, left', right'⟩
        · refine .inl ⟨mark :: earlier, later, by rw [same]; rfl, ?_, right'⟩
          rw [whole, left', shownText_cons, List.append_assoc]
        · refine .inr ⟨mark :: earlier, later, by rw [same]; rfl, ?_, right'⟩
          rw [whole, left', shownText_cons]
      intro left split
      rw [shownText_cons] at split
      cases mark with
      | phone =>
          obtain ⟨more, same, split⟩ := @sign_behind phoneMask (shownText others) left right
            (by decide) split
          exact further left more same split
      | mail =>
          obtain ⟨more, same, split⟩ := @sign_behind userMask
            ('@' :: (hostMask ++ shownText others)) left right (by decide) split
          cases more with
          | nil =>
              rw [List.append_nil] at same
              exact .inl ⟨[], others, rfl, same, (List.cons.inj split).2.symm⟩
          | cons d more =>
              obtain ⟨rfl, remaining⟩ := List.cons.inj split
              obtain ⟨rest, same', split⟩ := @sign_behind hostMask (shownText others) more right
                (by decide) remaining
              refine further left rest ?_ split
              rw [same, same']
              rfl
      | char c =>
          by_cases sign : c = '@'
          · subst sign
            cases left with
            | nil => exact .inr ⟨[], others, rfl, rfl, (List.cons.inj split).2.symm⟩
            | cons d more =>
                obtain ⟨rfl, remaining⟩ := List.cons.inj split
                exact further _ more rfl remaining
          · obtain ⟨more, same, split⟩ := sign_behind (sign_notMem_escapeChar sign) split
            exact further left more same split

theorem mailsMasked_shownText :
    MailsMasked classes (shownText marks) ↔
      (∀ earlier later, marks = earlier ++ .mail :: later → StandsApart classes earlier later) ∧
        ∀ earlier later, marks = earlier ++ .char '@' :: later →
          SignApart classes earlier later := by
  rw [mailsMasked_iff]
  constructor
  · intro masked
    constructor
    · intro earlier later same
      rw [standsApart_iff]
      apply masked
      rw [same, shownText_append, shownText_cons, List.append_assoc]
      rfl
    · intro earlier later same
      rw [signApart_iff]
      apply masked
      rw [same, shownText_append, shownText_cons]
      rfl
  · rintro ⟨masks, signs⟩ left right split
    rcases exists_of_sign marks left split with ⟨earlier, later, same, left', right'⟩ |
      ⟨earlier, later, same, left', right'⟩
    · rw [left', right']
      exact standsApart_iff.mp (masks earlier later same)
    · rw [left', right']
      exact signApart_iff.mp (signs earlier later same)

private theorem clean_shownText_iff (grouped : Grouped classes marks) :
    Clean classes (shownText marks) ↔ Quiet classes marks := by
  have runs : RunsMasked classes none [] (shownText marks) ↔ EscapesApart classes marks := by
    rw [runsMasked_shownText marks grouped, List.nil_append]
    exact and_iff_right (runMasked_short (digitsAt_short grouped))
  constructor
  · intro clean
    obtain ⟨masks, signs⟩ := mailsMasked_shownText.mp clean.mails
    exact ⟨masks, signs, runs.mp clean.runs⟩
  · intro quiet
    exact ⟨mailsMasked_shownText.mpr ⟨quiet.masks, quiet.signs⟩, runs.mpr quiet.escapes⟩

end Signs

/-! ### Strings and how they are printed -/

section Texts

variable {text : List Char} {c : Char}

theorem escapeText_append (front back : List Char) :
    escapeText (front ++ back) = escapeText front ++ escapeText back := List.flatMap_append

theorem escapeText_cons (c : Char) (text : List Char) :
    escapeText (c :: text) = escapeChar c ++ escapeText text := rfl

private theorem escapeText_rawText (marks : List Mark) :
    escapeText (rawText marks) = shownText marks := by
  induction marks with
  | nil => rfl
  | cons mark later ih =>
      rw [rawText_cons, escapeText_append, ih, shownText_cons]
      cases mark with
      | mail => rfl
      | phone => rfl
      | char c =>
          change escapeChar c ++ [] ++ _ = escapeChar c ++ _
          rw [List.append_nil]

theorem escapeText_local (inside : ∀ d ∈ text, isLocal d = true) : escapeText text = text := by
  induction text with
  | nil => rfl
  | cons c more ih =>
      obtain ⟨first, others⟩ := List.forall_mem_cons.mp inside
      rw [escapeText_cons, escapeChar_local first, ih others, List.singleton_append]

private theorem escapeText_first (text : List Char) :
    (escapeText text).head?.any classes.isWord = text.head?.any classes.isWord := by
  cases text with
  | nil => rfl
  | cons c more =>
      have nonempty : escapeChar c ≠ [] := @shown_ne_nil (.char c)
      rw [escapeText_cons, List.head?_append_of_ne_nil _ nonempty]
      exact @shown_first classes (.char c)

private theorem escapeText_last (front : List Char) (c : Char) :
    (escapeText (front ++ [c])).getLast?.any classes.isWord =
      (isControl c || classes.isWord c) := by
  have nonempty : escapeChar c ≠ [] := @shown_ne_nil (.char c)
  have single : escapeText [c] = escapeChar c := List.append_nil _
  rw [escapeText_append, single, List.getLast?_append_of_ne_nil _ nonempty]
  exact @shown_last classes (.char c)

private theorem nameEnds_escape {front name : List Char} (control : isControl c = true)
    (isName : ∀ d ∈ name, isLocal d = true) :
    ∃ tail, NameEnds classes (escapeText (front ++ [c]) ++ name) (tail ++ name) ∧
      ¬tail <+: userMask := by
  obtain ⟨tail, printed, nonempty, plain⟩ := exists_escape control
  have single : escapeText [c] = '\\' :: tail := (List.append_nil _).trans printed
  have apart : (!(escapeChar c).tail.isPrefixOf userMask) = true :=
    @forall_control c (fun d => !(escapeChar d).tail.isPrefixOf userMask) (by decide) control
  refine ⟨tail, ?_, ?_⟩
  · rw [escapeText_append, single, List.append_assoc, List.cons_append]
    refine nameEnds_word (List.append_ne_nil_of_left_ne_nil nonempty _) ?_ ?_ slash_not_word
    · rw [List.forall_mem_append]
      exact ⟨fun d member => isLocal_of_escape (plain d member), isName⟩
    · cases tail with
      | nil => exact absurd rfl nonempty
      | cons d more => exact isWord_of_escape (plain d List.mem_cons_self)
  · intro begins
    rw [printed, List.tail_cons, List.isPrefixOf_iff_prefix.mpr begins] at apart
    cases apart

theorem mailsMasked_of_escapeText (masked : MailsMasked classes (escapeText text)) :
    MailsMasked classes text := by
  rw [mailsMasked_iff] at masked ⊢
  intro left right split name host nameEnds hostBegins
  have printed : escapeText text = escapeText left ++ '@' :: escapeText right := by
    rw [split, escapeText_append, escapeText_cons]
    rfl
  have hostPrinted : HostBegins classes (escapeText right) host := by
    obtain ⟨domain, letters, back, shape, split', isHost⟩ := hostBegins
    have kept := escapeText_local (isHost.isLocal shape)
    refine ⟨domain, letters, escapeText back, shape, by rw [split', escapeText_append, kept],
      isHost.nonempty, isHost.inside, isHost.enough, isHost.final, ?_⟩
    rw [escapeText_first]
    exact isHost.apart
  obtain ⟨front, split', isName⟩ := nameEnds
  have kept := escapeText_local isName.inside
  have whole : escapeText left = escapeText front ++ name := by
    rw [split', escapeText_append, kept]
  rcases List.eq_nil_or_concat front with empty | ⟨init, c, ending⟩
  · rw [empty] at whole isName
    exact masked _ _ printed name host ⟨[], whole, isName⟩ hostPrinted
  · rw [List.concat_eq_append] at ending
    subst ending
    cases control : isControl c with
    | true =>
        obtain ⟨tail, longer, apart⟩ := @nameEnds_escape classes c init name control
          isName.inside
        rw [← whole] at longer
        have same := (masked _ _ printed _ host longer hostPrinted).1
        exact absurd (by rw [← same]; exact List.prefix_append _ _) apart
    | false =>
        have starts := isName.starts
        have last := @escapeText_last classes init c
        rw [control, Bool.false_or] at last
        refine masked _ _ printed name host ⟨_, whole, isName.nonempty, isName.inside, ?_⟩
          hostPrinted
        unfold isBoundary at starts ⊢
        rw [List.getLast?_concat, Option.any_some] at starts
        rw [last]
        exact starts

theorem redactText_stable (clean : Clean classes (escapeText (redactText classes text))) :
    redactText classes (redactText classes text) = redactText classes text :=
  redactText_twice (replaceAll_of_masked (mailsMasked_of_escapeText clean.mails))

theorem clean_redactText_iff (text : List Char) :
    Clean classes (escapeText (redactText classes text)) ↔
      Quiet classes (marksOf classes text) := by
  rw [redactText_eq_raw, escapeText_rawText]
  exact clean_shownText_iff (grouped_of_reads (reads_marksOf text))

end Texts

end MigrationPlatform.Suggest
