/-
Which e-mail addresses are found in a text.

An address is a name, the sign and a host, so that a text is searched on both sides of
each sign. What can stand neither in an address nor in a word breaks the text into parts
that are searched alone. A host that begins like the one of the mask may be longer.
-/

import MigrationPlatform.Suggest.RedactedText

namespace MigrationPlatform.Suggest

open Patterns

variable {classes : Classes}

structure IsName (classes : Classes) (before : Option Char) (name : List Char) : Prop where
  nonempty : name ≠ []
  inside : ∀ c ∈ name, isLocal c = true
  starts : isBoundary classes.isWord before name.head? = true

/-- What can stand behind it: a domain, a dot and the last letters. -/
structure IsHost (classes : Classes) (domain letters : List Char) (after : Option Char) :
    Prop where
  nonempty : domain ≠ []
  inside : ∀ c ∈ domain, isDomain c = true
  enough : 2 ≤ letters.length
  final : ∀ c ∈ letters, isLetter c = true
  apart : after.any classes.isWord = false

def NameEnds (classes : Classes) (left name : List Char) : Prop :=
  ∃ front, left = front ++ name ∧ IsName classes front.getLast? name

def HostBegins (classes : Classes) (right host : List Char) : Prop :=
  ∃ domain letters back, host = domain ++ '.' :: letters ∧ right = host ++ back ∧
    IsHost classes domain letters back.head?

section Addresses

variable {before : Option Char} {left right text middle rest name host : List Char} {c : Char}

theorem isWord_of_letter (letter : isLetter c = true) : classes.isWord c = true := by
  unfold isLetter at letter
  rw [Bool.or_eq_true] at letter
  rcases letter with alpha | folded
  · have ascii : c.toNat < 128 := by
      unfold Char.isAlpha Char.isUpper Char.isLower at alpha
      have bounds : c.val.toNat < 128 := by
        simp only [Bool.or_eq_true, Bool.and_eq_true, decide_eq_true_eq] at alpha
        rcases alpha with ⟨_, upper⟩ | ⟨_, lower⟩
        · have := UInt32.le_iff_toNat_le.mp upper
          exact Nat.lt_of_le_of_lt this (by decide)
        · have := UInt32.le_iff_toNat_le.mp lower
          exact Nat.lt_of_le_of_lt this (by decide)
      exact bounds
    rw [classes.word_ascii c ascii]
    unfold Char.isAlphanum
    rw [alpha]
    rfl
  · exact classes.word_folded c folded

theorem not_sign_of_local (inside : isLocal c = true) : c ≠ '@' := by
  intro same
  rw [same] at inside
  exact absurd inside (by decide)

theorem boundary_letters {letters : List Char} {after : Option Char}
    (enough : 2 ≤ letters.length) (final : ∀ c ∈ letters, isLetter c = true) :
    isBoundary classes.isWord (lastOr before letters) after = !after.any classes.isWord := by
  have nonempty : letters ≠ [] := List.length_pos_iff.mp (Nat.lt_of_lt_of_le Nat.zero_lt_two enough)
  have word : classes.isWord (letters.getLast nonempty) = true :=
    isWord_of_letter (final _ (List.getLast_mem nonempty))
  unfold isBoundary lastOr
  rw [List.getLast?_eq_some_getLast nonempty, Option.some_or, Option.any_some, word, Bool.true_bne]

theorem mem_ends_host (text : List Char) :
    rest ∈ ends [.many 1 isDomain, .one (fun c => c == '.'), .many 2 isLetter,
        .boundary classes.isWord] before text ↔
      ∃ domain letters, text = domain ++ '.' :: letters ++ rest ∧
        IsHost classes domain letters rest.head? := by
  rw [ends, mem_repeatEnds]
  constructor
  · rintro ⟨domain, back, split, inside, enough, member⟩
    rw [ends, mem_oneEnds] at member
    obtain ⟨dot, more, same, isDot, member⟩ := member
    rw [beq_iff_eq] at isDot
    subst isDot
    rw [ends, mem_repeatEnds] at member
    obtain ⟨letters, behind, split', final, enough', member⟩ := member
    rw [ends] at member
    split at member
    · rename_i boundary
      rw [ends, List.mem_singleton] at member
      subst member
      refine ⟨domain, letters, ?_, List.length_pos_iff.mp enough, inside, enough', final, ?_⟩
      · rw [split, same, split', List.append_assoc]
        rfl
      · rw [boundary_letters enough' final, Bool.not_eq_true'] at boundary
        exact boundary
    · cases member
  · rintro ⟨domain, letters, split, host⟩
    refine ⟨domain, '.' :: (letters ++ rest), ?_, host.inside,
      List.length_pos_iff.mpr host.nonempty, ?_⟩
    · rw [split, List.append_assoc]
      rfl
    · rw [ends, mem_oneEnds]
      refine ⟨'.', letters ++ rest, rfl, rfl, ?_⟩
      rw [ends, mem_repeatEnds]
      refine ⟨letters, rest, rfl, host.final, host.enough, ?_⟩
      rw [ends, boundary_letters host.enough host.final, host.apart, Bool.not_false, if_pos rfl]
      exact List.mem_singleton.mpr rfl

theorem matches_emailRe :
    Matches classes.emailRe before middle rest ↔
      ∃ name domain letters, middle = name ++ '@' :: (domain ++ '.' :: letters) ∧
        IsName classes before name ∧ IsHost classes domain letters rest.head? := by
  unfold Matches Classes.emailRe
  rw [ends]
  constructor
  · intro member
    split at member
    · rename_i starts
      rw [ends, mem_repeatEnds] at member
      obtain ⟨name, back, split, inside, enough, member⟩ := member
      rw [ends, mem_oneEnds] at member
      obtain ⟨sign, more, same, isSign, member⟩ := member
      rw [beq_iff_eq] at isSign
      subst isSign
      obtain ⟨domain, letters, split', host⟩ := (mem_ends_host more).mp member
      have nonempty := List.length_pos_iff.mp enough
      refine ⟨name, domain, letters, ?_, ⟨nonempty, inside, ?_⟩, host⟩
      · apply @List.append_cancel_right _ middle rest
        rw [split, same, split', List.append_assoc name, List.cons_append]
      · rw [split, List.head?_append_of_ne_nil _ nonempty] at starts
        exact starts
    · cases member
  · rintro ⟨name, domain, letters, split, isName, host⟩
    have whole : middle ++ rest = name ++ '@' :: (domain ++ '.' :: letters ++ rest) := by
      rw [split, List.append_assoc, List.cons_append]
    have starts := isName.starts
    rw [← @List.head?_append_of_ne_nil _ name ('@' :: (domain ++ '.' :: letters ++ rest))
      isName.nonempty] at starts
    rw [whole, if_pos starts, ends, mem_repeatEnds]
    refine ⟨name, _, rfl, isName.inside, List.length_pos_iff.mpr isName.nonempty, ?_⟩
    rw [ends, mem_oneEnds]
    exact ⟨'@', _, rfl, rfl, (mem_ends_host _).mpr ⟨domain, letters, rfl, host⟩⟩

theorem isLocal_of_domain (inside : isDomain c = true) : isLocal c = true := by
  unfold isDomain at inside
  unfold isLocal
  simp only [Bool.or_eq_true] at inside ⊢
  rcases inside with ((letter | digit) | dot) | dash
  · simp only [letter, true_or]
  · simp only [digit, true_or, or_true]
  · simp only [dot, true_or, or_true]
  · simp only [dash, or_true]

theorem isDomain_of_letter (letter : isLetter c = true) : isDomain c = true := by
  unfold isDomain
  rw [letter]
  rfl

theorem IsHost.isDomain {domain letters : List Char} {after : Option Char}
    (isHost : IsHost classes domain letters after) (shape : host = domain ++ '.' :: letters) :
    ∀ c ∈ host, Suggest.isDomain c = true := by
  rw [shape, List.forall_mem_append, List.forall_mem_cons]
  exact ⟨isHost.inside, rfl, fun c member => isDomain_of_letter (isHost.final c member)⟩

theorem IsHost.isLocal {domain letters : List Char} {after : Option Char}
    (isHost : IsHost classes domain letters after) (shape : host = domain ++ '.' :: letters) :
    ∀ c ∈ host, Suggest.isLocal c = true :=
  fun c member => isLocal_of_domain (isHost.isDomain shape c member)

theorem mailsMasked_iff :
    MailsMasked classes text ↔ ∀ left right, text = left ++ '@' :: right →
      ∀ name host, NameEnds classes left name → HostBegins classes right host →
        name = userMask ∧ host = hostMask := by
  constructor
  · rintro masked left right split name host ⟨front, same, isName⟩
      ⟨domain, letters, back, shape, same', isHost⟩
    have found := masked front (name ++ '@' :: host) back
      (by rw [split, same, same', List.append_assoc, List.append_assoc, List.append_assoc]; rfl)
      (matches_emailRe.mpr ⟨name, domain, letters, by rw [shape], isName, isHost⟩)
    have nameless : '@' ∉ name := fun member => not_sign_of_local (isName.inside _ member) rfl
    have hostless : '@' ∉ host := fun member =>
      not_sign_of_local (isHost.isLocal shape _ member) rfl
    have masks : emailMask = userMask ++ '@' :: hostMask := rfl
    rw [masks, List.append_cons_inj_of_notMem nameless hostless] at found
    exact ⟨found.1, found.2.2⟩
  · intro masked front middle back split matched
    obtain ⟨name, domain, letters, shape, isName, isHost⟩ := matches_emailRe.mp matched
    obtain ⟨sameName, sameHost⟩ := masked (front ++ name) (domain ++ '.' :: letters ++ back)
      (by rw [split, shape, List.append_assoc, List.append_assoc, List.append_assoc]; rfl)
      name (domain ++ '.' :: letters) ⟨front, rfl, isName⟩
      ⟨domain, letters, back, rfl, rfl, isHost⟩
    rw [shape, sameName, sameHost]
    rfl

/-- What can stand neither in an address nor at a side of it where a word would stand. -/
structure Breaks (classes : Classes) (c : Char) : Prop where
  outside : isLocal c = false
  unsigned : c ≠ '@'
  apart : classes.isWord c = false

private theorem Breaks.not_decimal (breaks : Breaks classes c) : classes.isDecimal c = false := by
  cases decimal : classes.isDecimal c with
  | false => rfl
  | true =>
      have word := classes.decimal_word c decimal
      rw [breaks.apart] at word
      cases word

theorem nameEnds_break (breaks : Breaks classes c) :
    NameEnds classes (text ++ c :: left) name ↔ NameEnds classes left name := by
  have boundary : ∀ front : List Char, (text ++ c :: front).getLast?.any classes.isWord =
      front.getLast?.any classes.isWord := by
    intro front
    rw [List.getLast?_append, List.getLast?_cons, Option.some_or]
    cases front.getLast? with
    | none => exact breaks.apart
    | some d => rfl
  constructor
  · rintro ⟨front, split, isName⟩
    have absent : c ∉ name := by
      intro member
      have inside := isName.inside c member
      rw [breaks.outside] at inside
      cases inside
    rcases List.append_eq_append_iff.mp split with ⟨more, same, others⟩ | ⟨more, same, others⟩
    · cases more with
      | nil =>
          rw [List.nil_append] at others
          exact absurd (by rw [← others]; exact List.mem_cons_self) absent
      | cons d more =>
          obtain ⟨rfl, remaining⟩ := List.cons.inj others
          refine ⟨more, remaining, isName.nonempty, isName.inside, ?_⟩
          have starts := isName.starts
          unfold isBoundary at starts ⊢
          rw [same, boundary] at starts
          exact starts
    · exact absurd (by rw [others]; exact List.mem_append_right _ List.mem_cons_self) absent
  · rintro ⟨front, split, isName⟩
    refine ⟨text ++ c :: front, by rw [split, List.append_assoc]; rfl, isName.nonempty,
      isName.inside, ?_⟩
    have starts := isName.starts
    unfold isBoundary at starts ⊢
    rw [boundary]
    exact starts

theorem hostBegins_break (breaks : Breaks classes c) :
    HostBegins classes (right ++ c :: text) host ↔ HostBegins classes right host := by
  have boundary : ∀ back : List Char, (back ++ c :: text).head?.any classes.isWord =
      back.head?.any classes.isWord := by
    intro back
    cases back with
    | nil => exact breaks.apart
    | cons d more => rfl
  constructor
  · rintro ⟨domain, letters, back, shape, split, isHost⟩
    have absent : c ∉ host := by
      intro member
      have inside := isHost.isLocal shape c member
      rw [breaks.outside] at inside
      cases inside
    have whole : ∃ behind, right = host ++ behind ∧ back = behind ++ c :: text := by
      rcases List.append_eq_append_iff.mp split with ⟨more, same, others⟩ | ⟨more, same, others⟩
      · cases more with
        | nil =>
            rw [List.append_nil] at same
            exact ⟨[], by rw [same, List.append_nil], others.symm⟩
        | cons d more =>
            obtain ⟨rfl, _⟩ := List.cons.inj others
            exact absurd (by rw [same]; exact List.mem_append_right _ List.mem_cons_self) absent
      · exact ⟨more, same, others⟩
    obtain ⟨behind, same, others⟩ := whole
    refine ⟨domain, letters, behind, shape, same, isHost.nonempty, isHost.inside, isHost.enough,
      isHost.final, ?_⟩
    rw [← boundary, ← others]
    exact isHost.apart
  · rintro ⟨domain, letters, back, shape, split, isHost⟩
    refine ⟨domain, letters, back ++ c :: text, shape, by rw [split, List.append_assoc],
      isHost.nonempty, isHost.inside, isHost.enough, isHost.final, ?_⟩
    rw [boundary]
    exact isHost.apart

theorem mailsMasked_break (breaks : Breaks classes c) :
    MailsMasked classes (left ++ c :: right) ↔
      MailsMasked classes left ∧ MailsMasked classes right := by
  rw [mailsMasked_iff, mailsMasked_iff, mailsMasked_iff]
  constructor
  · intro masked
    constructor
    · intro front back split name host named hosted
      exact masked front (back ++ c :: right) (by rw [split, List.append_assoc]; rfl) name host
        named ((hostBegins_break breaks).mpr hosted)
    · intro front back split name host named hosted
      exact masked (left ++ c :: front) back (by rw [split, List.append_assoc]; rfl) name host
        ((nameEnds_break breaks).mpr named) hosted
  · rintro ⟨maskedLeft, maskedRight⟩ front back split name host named hosted
    rcases List.append_eq_append_iff.mp split with ⟨more, same, others⟩ | ⟨more, same, others⟩
    · cases more with
      | nil => exact absurd (List.cons.inj others).1 breaks.unsigned
      | cons d more =>
          obtain ⟨rfl, remaining⟩ := List.cons.inj others
          rw [same, nameEnds_break breaks] at named
          exact maskedRight more back remaining name host named hosted
    · cases more with
      | nil => exact absurd (List.cons.inj others).1.symm breaks.unsigned
      | cons d more =>
          obtain ⟨rfl, remaining⟩ := List.cons.inj others
          rw [show back = more ++ c :: right from remaining, hostBegins_break breaks] at hosted
          exact maskedLeft front more same name host named hosted

theorem clean_break (breaks : Breaks classes c) :
    Clean classes (left ++ c :: right) ↔ Clean classes left ∧ Clean classes right := by
  have unsigned : c ≠ '+' := by
    intro same
    have outside := breaks.outside
    rw [same] at outside
    exact absurd outside (by decide)
  have mails := @mailsMasked_break classes left right c breaks
  have runs := @runsMasked_break classes none [] right left c breaks.not_decimal unsigned
  constructor
  · intro clean
    exact ⟨⟨(mails.mp clean.mails).1, (runs.mp clean.runs).1⟩,
      ⟨(mails.mp clean.mails).2, (runs.mp clean.runs).2⟩⟩
  · rintro ⟨cleanLeft, cleanRight⟩
    exact ⟨mails.mpr ⟨cleanLeft.mails, cleanRight.mails⟩,
      runs.mpr ⟨cleanLeft.runs, cleanRight.runs⟩⟩

end Addresses

/-! ### Names -/

section Names

variable {left front name word : List Char} {c : Char}

theorem not_nameEnds (outside : isLocal c = false) : ¬NameEnds classes (left ++ [c]) name := by
  rintro ⟨front, split, isName⟩
  have last := congrArg List.getLast? split
  rw [List.getLast?_concat, List.getLast?_append_of_ne_nil _ isName.nonempty] at last
  have inside := isName.inside c (List.mem_of_getLast? last.symm)
  rw [outside] at inside
  cases inside

theorem exists_nameEnds_local (inside : isLocal c = true) :
    (∃ name, NameEnds classes (left ++ [c]) name) ↔
      isBoundary classes.isWord left.getLast? (some c) = true ∨
        ∃ name, NameEnds classes left name := by
  constructor
  · rintro ⟨name, front, split, isName⟩
    rcases List.eq_nil_or_concat name with empty | ⟨shorter, last, ending⟩
    · exact absurd empty isName.nonempty
    · rw [List.concat_eq_append] at ending
      subst ending
      rw [← List.append_assoc] at split
      obtain ⟨same, lastSame⟩ := List.append_inj' split rfl
      cases lastSame
      cases shorter with
      | nil =>
          rw [List.append_nil] at same
          rw [same]
          exact .inl isName.starts
      | cons d more =>
          exact .inr ⟨d :: more, front, same, List.cons_ne_nil _ _,
            fun e member => isName.inside e (List.mem_append_left _ member), isName.starts⟩
  · rintro (starts | ⟨name, front, split, isName⟩)
    · exact ⟨[c], left, rfl, List.cons_ne_nil _ _, List.forall_mem_singleton.mpr inside, starts⟩
    · refine ⟨name ++ [c], front, by rw [split, List.append_assoc], ?_, ?_, ?_⟩
      · exact List.append_ne_nil_of_left_ne_nil isName.nonempty _
      · rw [List.forall_mem_append, List.forall_mem_singleton]
        exact ⟨isName.inside, inside⟩
      · rw [List.head?_append_of_ne_nil _ isName.nonempty]
        exact isName.starts

theorem nameEnds_word (nonempty : word ≠ []) (inside : ∀ d ∈ word, isLocal d = true)
    (starts : word.head?.any classes.isWord = true) (other : classes.isWord c = false) :
    NameEnds classes (left ++ c :: word) word := by
  refine ⟨left ++ [c], by rw [List.append_assoc]; rfl, nonempty, inside, ?_⟩
  unfold isBoundary
  rw [List.getLast?_concat, Option.any_some, other, starts]
  rfl

theorem boundary_word {before : Option Char} (nonempty : word ≠ [])
    (words : ∀ d ∈ word, classes.isWord d = true) :
    isBoundary classes.isWord before word.head? = !before.any classes.isWord := by
  cases word with
  | nil => exact absurd rfl nonempty
  | cons d more =>
      unfold isBoundary
      rw [List.head?_cons, Option.any_some, words d List.mem_cons_self, Bool.bne_true]

theorem nameEnds_append (nonempty : word ≠ []) (inside : ∀ d ∈ word, isLocal d = true)
    (words : ∀ d ∈ word, classes.isWord d = true) :
    NameEnds classes (left ++ word) name ↔
      name = word ∧ left.getLast?.any classes.isWord = false ∨
        ∃ shorter, name = shorter ++ word ∧ NameEnds classes left shorter := by
  constructor
  · rintro ⟨front, split, isName⟩
    have starts := isName.starts
    rcases List.append_eq_append_iff.mp split with ⟨more, same, others⟩ | ⟨more, same, others⟩
    · have rest : ∀ d ∈ name, classes.isWord d = true := fun d member =>
        words d (by rw [others]; exact List.mem_append_right _ member)
      rw [boundary_word isName.nonempty rest, Bool.not_eq_true', same] at starts
      rcases List.eq_nil_or_concat more with empty | ⟨init, last, ending⟩
      · rw [empty, List.append_nil] at starts
        rw [empty, List.nil_append] at others
        exact .inl ⟨others.symm, starts⟩
      · rw [List.concat_eq_append] at ending
        rw [ending, ← List.append_assoc, List.getLast?_concat, Option.any_some,
          words last (by rw [others, ending]; simp)] at starts
        cases starts
    · cases more with
      | nil =>
          rw [List.nil_append] at others
          rw [others, boundary_word nonempty words, Bool.not_eq_true'] at starts
          rw [List.append_nil] at same
          rw [← same] at starts
          exact .inl ⟨others, starts⟩
      | cons d more =>
          refine .inr ⟨d :: more, others, front, same, List.cons_ne_nil _ _, ?_, ?_⟩
          · intro e member
            apply isName.inside
            rw [others]
            exact List.mem_append_left _ member
          · rw [others] at starts
            exact starts
  · rintro (⟨rfl, apart⟩ | ⟨shorter, same, front, split, isName⟩)
    · refine ⟨left, rfl, nonempty, inside, ?_⟩
      rw [boundary_word nonempty words, apart]
      rfl
    · refine ⟨front, by rw [split, same, List.append_assoc], ?_, ?_, ?_⟩
      · rw [same]
        exact List.append_ne_nil_of_left_ne_nil isName.nonempty _
      · rw [same, List.forall_mem_append]
        exact ⟨isName.inside, inside⟩
      · rw [same, List.head?_append_of_ne_nil _ isName.nonempty]
        exact isName.starts

end Names

section Hosts

variable {text : List Char} {c : Char} {read : Nat}

def LettersEnd (classes : Classes) (read : Nat) (text : List Char) : Prop :=
  ∃ letters back, text = letters ++ back ∧ (∀ d ∈ letters, isLetter d = true) ∧
    2 ≤ read + letters.length ∧ back.head?.any classes.isWord = false

def HostRest (classes : Classes) (text : List Char) : Prop :=
  ∃ domain rest, text = domain ++ '.' :: rest ∧ (∀ d ∈ domain, isDomain d = true) ∧
    LettersEnd classes 0 rest

theorem lettersEnd_nil : LettersEnd classes read [] ↔ 2 ≤ read := by
  constructor
  · rintro ⟨letters, back, split, _, enough, _⟩
    rw [(List.append_eq_nil_iff.mp split.symm).1] at enough
    exact enough
  · intro enough
    exact ⟨[], [], rfl, List.forall_mem_nil _, enough, rfl⟩

theorem lettersEnd_letter (letter : isLetter c = true) :
    LettersEnd classes read (c :: text) ↔ LettersEnd classes (read + 1) text := by
  constructor
  · rintro ⟨letters, back, split, final, enough, apart⟩
    cases letters with
    | nil =>
        rw [List.nil_append] at split
        rw [← split, List.head?_cons, Option.any_some, isWord_of_letter letter] at apart
        cases apart
    | cons d more =>
        obtain ⟨_, same⟩ := List.cons.inj split
        rw [List.length_cons] at enough
        exact ⟨more, back, same, fun e member => final e (.tail _ member), by omega, apart⟩
  · rintro ⟨letters, back, split, final, enough, apart⟩
    refine ⟨c :: letters, back, by rw [split]; rfl, List.forall_mem_cons.mpr ⟨letter, final⟩, ?_,
      apart⟩
    rw [List.length_cons]
    omega

theorem lettersEnd_other (other : isLetter c = false) :
    LettersEnd classes read (c :: text) ↔ 2 ≤ read ∧ classes.isWord c = false := by
  constructor
  · rintro ⟨letters, back, split, final, enough, apart⟩
    cases letters with
    | nil =>
        rw [List.nil_append] at split
        rw [← split] at apart
        exact ⟨enough, apart⟩
    | cons d more =>
        obtain ⟨same, _⟩ := List.cons.inj split
        have letter := final d List.mem_cons_self
        rw [← same, other] at letter
        cases letter
  · rintro ⟨enough, apart⟩
    exact ⟨[], c :: text, rfl, List.forall_mem_nil _, enough, apart⟩

theorem not_hostRest_nil : ¬HostRest classes [] := by
  rintro ⟨domain, rest, split, _⟩
  cases domain <;> cases split

theorem hostRest_cons :
    HostRest classes (c :: text) ↔
      isDomain c = true ∧ (c = '.' ∧ LettersEnd classes 0 text ∨ HostRest classes text) := by
  constructor
  · rintro ⟨domain, rest, split, inside, final⟩
    cases domain with
    | nil =>
        obtain ⟨rfl, same⟩ := List.cons.inj split
        rw [same]
        exact ⟨rfl, .inl ⟨rfl, final⟩⟩
    | cons d more =>
        obtain ⟨rfl, same⟩ := List.cons.inj split
        obtain ⟨first, others⟩ := List.forall_mem_cons.mp inside
        exact ⟨first, .inr ⟨more, rest, same, others, final⟩⟩
  · rintro ⟨first, ⟨rfl, final⟩ | ⟨domain, rest, split, inside, final⟩⟩
    · exact ⟨[], text, rfl, List.forall_mem_nil _, final⟩
    · exact ⟨c :: domain, rest, by rw [split]; rfl, List.forall_mem_cons.mpr ⟨first, inside⟩, final⟩

theorem not_hostRest (outside : isDomain c = false) : ¬HostRest classes (c :: text) := by
  rw [hostRest_cons, outside]
  exact fun both => Bool.false_ne_true both.1

theorem not_hostBegins_nil {host : List Char} : ¬HostBegins classes [] host := by
  rintro ⟨domain, letters, back, shape, split, _⟩
  rw [shape, List.append_assoc] at split
  cases domain <;> cases split

theorem exists_hostBegins :
    (∃ host, HostBegins classes (c :: text) host) ↔
      isDomain c = true ∧ HostRest classes text := by
  constructor
  · rintro ⟨host, domain, letters, back, shape, split, isHost⟩
    cases domain with
    | nil => exact absurd rfl isHost.nonempty
    | cons d more =>
        obtain ⟨first, others⟩ := List.forall_mem_cons.mp isHost.inside
        rw [shape, List.append_assoc, List.cons_append] at split
        obtain ⟨rfl, remaining⟩ := List.cons.inj split
        refine ⟨first, more, letters ++ back, remaining, others, letters, back, rfl,
          isHost.final, ?_, isHost.apart⟩
        rw [Nat.zero_add]
        exact isHost.enough
  · rintro ⟨first, domain, more, split, inside, letters, back, split', final, enough, apart⟩
    refine ⟨c :: domain ++ '.' :: letters, c :: domain, letters, back, rfl, ?_,
      List.cons_ne_nil _ _, List.forall_mem_cons.mpr ⟨first, inside⟩, ?_, final, apart⟩
    · rw [split, split', List.append_assoc]
      rfl
    · rw [Nat.zero_add] at enough
      exact enough

theorem not_hostRest_step (other : c ≠ '.') (absent : ¬HostRest classes text) :
    ¬HostRest classes (c :: text) := by
  intro found
  rcases (hostRest_cons.mp found).2 with ⟨dot, _⟩ | inside
  · exact other dot
  · exact absent inside

def exampleMask : List Char := ['e', 'x', 'a', 'm', 'p', 'l', 'e']

def comMask : List Char := ['c', 'o', 'm']

private theorem hostMask_eq : hostMask = exampleMask ++ '.' :: comMask := rfl

theorem hostMask_isDomain : ∀ d ∈ hostMask, isDomain d = true := List.all_eq_true.mp (by decide)

theorem hostBegins_mask :
    HostBegins classes (hostMask ++ text) hostMask ↔ text.head?.any classes.isWord = false := by
  constructor
  · rintro ⟨domain, letters, back, _, split, isHost⟩
    rw [List.append_cancel_left split]
    exact isHost.apart
  · intro apart
    exact ⟨exampleMask, comMask, text, rfl, rfl, List.cons_ne_nil _ _,
      List.all_eq_true.mp (by decide), by decide, List.all_eq_true.mp (by decide), apart⟩

theorem host_of_mask {domain letters back : List Char}
    (split : hostMask ++ text = domain ++ '.' :: (letters ++ back)) :
    (∃ more, domain = hostMask ++ more ∧ text = more ++ '.' :: (letters ++ back)) ∨
      domain = exampleMask ∧ comMask ++ text = letters ++ back := by
  rw [hostMask_eq, List.append_assoc, List.cons_append] at split
  rcases List.append_eq_append_iff.mp split with ⟨more, same, others⟩ | ⟨more, same, others⟩
  · cases more with
    | nil =>
        rw [List.append_nil] at same
        exact .inr ⟨same, (List.cons.inj others).2⟩
    | cons d more =>
        obtain ⟨rfl, remaining⟩ := List.cons.inj others
        rcases List.append_eq_append_iff.mp remaining with
          ⟨rest, same', others'⟩ | ⟨rest, same', others'⟩
        · exact .inl ⟨rest, by rw [same, same']; rfl, others'⟩
        · cases rest with
          | nil =>
              rw [List.append_nil] at same'
              exact .inl ⟨[], by rw [same, ← same']; rfl, others'.symm⟩
          | cons e rest =>
              obtain ⟨rfl, _⟩ := List.cons.inj others'
              have member : '.' ∈ comMask := by
                rw [same']
                exact List.mem_append_right _ List.mem_cons_self
              exact absurd member (by decide)
  · cases more with
    | nil =>
        rw [List.append_nil] at same
        exact .inr ⟨same.symm, (List.cons.inj others).2.symm⟩
    | cons d more =>
        obtain ⟨rfl, _⟩ := List.cons.inj others
        have member : '.' ∈ exampleMask := by
          rw [same]
          exact List.mem_append_right _ List.mem_cons_self
        exact absurd member (by decide)

def LettersGoOn (classes : Classes) (text : List Char) : Prop :=
  ∃ c rest, text = c :: rest ∧ isLetter c = true ∧ LettersEnd classes 4 rest

private theorem lettersGoOn_of_letters {letters back : List Char}
    (split : comMask ++ text = letters ++ back) (final : ∀ d ∈ letters, isLetter d = true)
    (apart : back.head?.any classes.isWord = false) (other : letters ≠ comMask) :
    LettersGoOn classes text := by
  rcases List.append_eq_append_iff.mp split with ⟨more, same, rest⟩ | ⟨more, same, rest⟩
  · cases more with
    | nil =>
        rw [List.append_nil] at same
        exact absurd same other
    | cons c more =>
        rw [same, List.forall_mem_append, List.forall_mem_cons] at final
        exact ⟨c, more ++ back, rest, final.2.1, more, back, rfl, final.2.2, by omega, apart⟩
  · cases more with
    | nil =>
        rw [List.append_nil] at same
        exact absurd same.symm other
    | cons c more =>
        have letter : isLetter c = true := by
          have all : ∀ d ∈ comMask, isLetter d = true := List.all_eq_true.mp (by decide)
          apply all
          rw [same]
          exact List.mem_append_right _ List.mem_cons_self
        rw [rest, List.cons_append, List.head?_cons, Option.any_some,
          isWord_of_letter letter] at apart
        cases apart

private theorem longer_host_of_rest (found : HostRest classes text) :
    ∃ host, HostBegins classes (hostMask ++ text) host ∧ host ≠ hostMask := by
  obtain ⟨domain, rest, split, inside, letters, back, split', final, enough, apart⟩ := found
  refine ⟨hostMask ++ domain ++ '.' :: letters, ⟨hostMask ++ domain, letters, back, rfl, ?_, ?_, ?_,
    ?_, final, apart⟩, ?_⟩
  · rw [split, split', List.append_assoc, List.append_assoc, List.cons_append]
  · exact List.append_ne_nil_of_left_ne_nil (List.cons_ne_nil _ _) _
  · rw [List.forall_mem_append]
    exact ⟨hostMask_isDomain, inside⟩
  · rw [Nat.zero_add] at enough
    exact enough
  · intro same
    have sizes := congrArg List.length same
    rw [List.length_append, List.length_append, List.length_cons] at sizes
    omega

private theorem longer_host_of_letters (found : LettersGoOn classes text) :
    ∃ host, HostBegins classes (hostMask ++ text) host ∧ host ≠ hostMask := by
  obtain ⟨c, rest, split, letter, letters, back, split', final, _, apart⟩ := found
  refine ⟨hostMask ++ c :: letters, ⟨exampleMask, comMask ++ c :: letters, back, rfl, ?_,
    List.cons_ne_nil _ _, List.all_eq_true.mp (by decide), ?_, ?_, apart⟩, ?_⟩
  · rw [split, split', List.append_assoc]
    rfl
  · rw [List.length_append]
    exact Nat.le_add_right_of_le (by decide)
  · rw [List.forall_mem_append, List.forall_mem_cons]
    exact ⟨List.all_eq_true.mp (by decide), letter, final⟩
  · intro same
    have sizes := congrArg List.length same
    rw [List.length_append, List.length_cons] at sizes
    omega

theorem exists_longer_host :
    (∃ host, HostBegins classes (hostMask ++ text) host ∧ host ≠ hostMask) ↔
      HostRest classes text ∨ LettersGoOn classes text := by
  constructor
  · rintro ⟨host, ⟨domain, letters, back, shape, split, isHost⟩, other⟩
    rw [shape, List.append_assoc, List.cons_append] at split
    rcases host_of_mask split with ⟨more, same, others⟩ | ⟨same, others⟩
    · refine .inl ⟨more, letters ++ back, others, fun d member => isHost.inside d ?_, letters, back,
        rfl, isHost.final, ?_, isHost.apart⟩
      · rw [same]
        exact List.mem_append_right _ member
      · rw [Nat.zero_add]
        exact isHost.enough
    · refine .inr (lettersGoOn_of_letters others isHost.final isHost.apart ?_)
      intro equal
      exact other (by rw [shape, same, equal]; rfl)
  · rintro (found | found)
    · exact longer_host_of_rest found
    · exact longer_host_of_letters found

end Hosts

end MigrationPlatform.Suggest
