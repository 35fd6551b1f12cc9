/-
The values of a JSON stream, one after another.

A reader takes the bytes of one value, with the white space before them, and leaves
what follows; it does not ask what that is. The bytes of an array in turn are values
with commas between them. Both agree: where an array goes on with what cannot
continue a value, the reader takes the values of the array, and no others can be
read from the same bytes.
-/

import MigrationPlatform.Foundation.JsonText
import MigrationPlatform.Foundation.Trimming

namespace JsonStream

open JsonText Utf8 Trimming

def Whole (limit : Option Nat) (scanner : Scanner) : Prop :=
  step limit scanner 32 = { position := .endValue, stack := [] }

instance (limit : Option Nat) (scanner : Scanner) : Decidable (Whole limit scanner) :=
  inferInstanceAs (Decidable (_ = _))

def endsBefore (scanner : Scanner) (byte : UInt8) : Bool :=
  scanner.stack.isEmpty &&
    match scanner.position with
    | .endValue => true
    | .number state => state.final && (state.next byte).isNone
    | _ => false

inductive Reading
  | value (text rest : Bytes)
  | cut
  | bad
deriving DecidableEq, Repr

def Reading.after (byte : UInt8) : Reading → Reading
  | .value text rest => .value (byte :: text) rest
  | .cut => .cut
  | .bad => .bad

/-- An array or an object is over at its closing byte, any other value only before the
next byte or at the end of the stream, if that is known to be one. -/
def readFrom (limit : Option Nat) (ended : Bool) (scanner : Scanner) : Bytes → Reading
  | [] => if ended = true ∧ Whole limit scanner then .value [] [] else .cut
  | byte :: rest =>
      if endsBefore scanner byte = true then .value [] (byte :: rest)
      else if (step limit scanner byte).position = .error then .bad
      else if (byte = 125 ∨ byte = 93) ∧
          step limit scanner byte = { position := .endValue, stack := [] } then .value [byte] rest
      else (readFrom limit ended (step limit scanner byte) rest).after byte

def readValue (limit : Option Nat) (ended : Bool) (bytes : Bytes) : Reading :=
  readFrom limit ended start bytes

def Spaces (bytes : Bytes) : Prop := ∀ byte ∈ bytes, isSpace byte = true

structure IsItem (limit : Option Nat) (text : Bytes) : Prop where
  accepted : accepts limit text = true
  trimmed : ∀ byte ∈ text.getLast?, isSpace byte = false

/-- What stands before a value: nothing before the first, a comma before the others. -/
def Separates : (first : Bool) → Bytes → Prop
  | true, gap => gap = []
  | false, gap => ∃ spaces, Spaces spaces ∧ gap = spaces ++ [44]

/-- The bytes begin with the items of an array and go on with the rest. -/
inductive Items (limit : Option Nat) : Bool → List Bytes → Bytes → Bytes → Prop
  | done {first : Bool} {rest : Bytes} : Items limit first [] rest rest
  | more {first : Bool} {gap text later rest : Bytes} {items : List Bytes}
      (gapped : Separates first gap) (item : IsItem limit text)
      (others : Items limit false items later rest) :
      Items limit first (text :: items) (gap ++ (text ++ later)) rest

/-- The bytes are one array of the items: it is closed, and nothing follows. -/
structure IsArray (limit : Option Nat) (items : List Bytes) (bytes : Bytes) : Prop where
  written : ∃ lead body gap trail, Spaces lead ∧ bytes = lead ++ 91 :: body ∧
    Items limit true items body (gap ++ 93 :: trail) ∧ Spaces gap ∧ Spaces trail

def Closed (rest : Bytes) : Prop := ∀ byte ∈ (rest.dropWhile isSpace).head?, byte = 93 ∨ byte = 125

/-- Behind the items comes no closing bracket, or something behind it. -/
def CutShort (limit : Option Nat) (bytes : Bytes) : Prop :=
  ∃ lead body items rest, Spaces lead ∧ bytes = lead ++ 91 :: body ∧
    Items limit true items body rest ∧ Closed rest ∧
      ∀ gap trail, Spaces gap → Spaces trail → rest ≠ gap ++ 93 :: trail

variable {limit : Option Nat}

theorem not_space_next (state : NumberState) {byte : UInt8} (space : isSpace byte = true) :
    state.next byte = none := by
  cases next : state.next byte with
  | none => rfl
  | some later =>
      have plain := (numberByte_plain (next_byte next)).2.1
      rw [space] at plain
      cases plain

theorem spaceless {word : List UInt8} (plain : word.all (fun byte => !isSpace byte) = true) :
    ∀ byte ∈ word, isSpace byte = false := by
  intro byte member
  have letter := List.all_eq_true.mp plain byte member
  rw [Bool.not_eq_true'] at letter
  exact letter

def Lettered (scanner : Scanner) : Prop :=
  ∀ rest, scanner.position = .literal rest → ∀ byte ∈ rest, isSpace byte = false

theorem lettered_start : Lettered start := by
  intro rest place
  cases place

theorem lettered_opened (stack : List Frame) (frame : Frame) {position : Position}
    (plain : ∀ rest, position ≠ .literal rest) : Lettered (opened limit stack frame position) := by
  intro rest place
  unfold opened at place
  split at place
  · exact absurd place (plain rest)
  · cases place

theorem lettered_beginValue (stack : List Frame) (byte : UInt8) :
    Lettered (beginValue limit stack byte) := by
  unfold beginValue
  split
  · intro rest place
    cases place
  split
  · exact lettered_opened stack _ (fun _rest => Position.noConfusion)
  split
  · exact lettered_opened stack _ (fun _rest => Position.noConfusion)
  split
  · intro rest place
    cases place
  split
  · intro rest place
    cases place
    exact spaceless rfl
  split
  · intro rest place
    cases place
    exact spaceless rfl
  split
  · intro rest place
    cases place
    exact spaceless rfl
  split
  · intro rest place
    cases place
  · intro rest place
    cases place

theorem lettered_afterValue (stack : List Frame) (byte : UInt8) : Lettered (afterValue stack byte) := by
  intro rest place
  unfold afterValue at place
  repeat' split at place
  all_goals cases place

theorem lettered_beginKey (stack : List Frame) (byte : UInt8) : Lettered (beginKey stack byte) := by
  intro rest place
  unfold beginKey at place
  repeat' split at place
  all_goals cases place

variable {scanner : Scanner}

theorem Lettered.step (lettered : Lettered scanner) (byte : UInt8) :
    Lettered (step limit scanner byte) := by
  cases position : scanner.position with
  | beginValue =>
      simp only [JsonText.step, position]
      exact lettered_beginValue _ byte
  | beginValueOrEmpty =>
      simp only [JsonText.step, position]
      split
      · exact lettered
      split
      · exact lettered_afterValue _ byte
      · exact lettered_beginValue _ byte
  | beginKey =>
      simp only [JsonText.step, position]
      exact lettered_beginKey _ byte
  | beginKeyOrEmpty =>
      simp only [JsonText.step, position]
      split
      · exact lettered
      split
      · intro rest place
        cases place
      · exact lettered_beginKey _ byte
  | number state =>
      simp only [JsonText.step, position]
      split
      · intro rest place
        cases place
      split
      · exact lettered_afterValue _ byte
      · intro rest place
        cases place
  | literal left =>
      simp only [JsonText.step, position]
      split
      · intro rest place
        cases place
      · rename_i first others
        split
        · intro rest place
          have inside := lettered _ position
          simp only at place
          split at place
          · cases place
          · cases place
            exact fun other member => inside other (List.mem_cons_of_mem _ member)
        · intro rest place
          cases place
  | endValue =>
      simp only [JsonText.step, position]
      exact lettered_afterValue _ byte
  | _ =>
      intro rest place
      simp only [JsonText.step, position] at place
      repeat' split at place
      all_goals first
        | cases place
        | exact lettered rest place

def AtEnd (scanner : Scanner) : Prop :=
  scanner.stack = [] ∧ (scanner.position = .endValue ∨
    ∃ state, scanner.position = .number state ∧ state.final = true)

theorem AtEnd.space (ended : AtEnd scanner) {byte : UInt8} (space : isSpace byte = true) :
    step limit scanner byte = { position := .endValue, stack := [] } := by
  obtain ⟨empty, endValue | ⟨state, number, final⟩⟩ := ended
  · simp only [step, endValue, empty, afterValue, space, if_true]
  · simp only [step, number, not_space_next state space, final, if_true, empty, afterValue, space]

theorem AtEnd.endsBefore (ended : AtEnd scanner) {byte : UInt8}
    (apart : isNumberByte byte = false) : endsBefore scanner byte = true := by
  obtain ⟨empty, endValue | ⟨state, number, final⟩⟩ := ended
  · simp only [JsonStream.endsBefore, empty, endValue]
    rfl
  · have stops : state.next byte = none := by
      cases next : state.next byte with
      | none => rfl
      | some later =>
          rw [next_byte next] at apart
          cases apart
    simp only [JsonStream.endsBefore, empty, number, stops, final]
    rfl

theorem atEnd_of_endsBefore {byte : UInt8}
    (ended : endsBefore scanner byte = true) : AtEnd scanner := by
  unfold endsBefore at ended
  obtain ⟨empty, place⟩ := Bool.and_eq_true_iff.mp ended
  refine ⟨List.isEmpty_iff.mp empty, ?_⟩
  split at place
  · rename_i endValue
    exact .inl endValue
  · rename_i state number
    exact .inr ⟨state, number, (Bool.and_eq_true_iff.mp place).1⟩
  · cases place

def mayEnd : Position → Bool
  | .endValue => true
  | .number _ => true
  | _ => false

theorem AtEnd.mayEnd (ended : AtEnd scanner) :
    mayEnd scanner.position = true := by
  rcases ended.2 with endValue | ⟨state, number, _final⟩
  · rw [endValue]
    rfl
  · rw [number]
    rfl

theorem atEnd_of_space (lettered : Lettered scanner) {byte : UInt8}
    (space : isSpace byte = true) (ended : AtEnd (step limit scanner byte)) : AtEnd scanner := by
  have other : ∀ code, isSpace code = false → byte ≠ code := by
    intro code plain same
    rw [same, plain] at space
    cases space
  have empty := ended.1
  have place := ended.mayEnd
  cases position : scanner.position with
  | endValue =>
      simp only [step, position, afterValue, space, if_true] at empty
      exact ⟨empty, .inl position⟩
  | number state =>
      simp only [step, position, not_space_next state space] at empty place
      by_cases final : state.final = true
      · simp only [final, if_true, afterValue, space] at empty
        exact ⟨empty, .inr ⟨state, position, final⟩⟩
      · rw [if_neg final] at place
        cases place
  | literal left =>
      cases left with
      | nil =>
          simp only [step, position] at place
          cases place
      | cons first others =>
          have letter := lettered _ position first List.mem_cons_self
          simp only [step, position, if_neg (other first letter)] at place
          cases place
  | beginValue =>
      simp only [step, position, beginValue, space, if_true] at place
      cases place
  | beginKey =>
      simp only [step, position, beginKey, space, if_true] at place
      cases place
  | inString =>
      simp only [step, position, if_neg (other 34 rfl), if_neg (other 92 rfl)] at place
      split at place
      · cases place
      · rw [position] at place
        cases place
  | escape =>
      have mark : isEscapeMark byte = false := by
        by_contra marked
        have letters : ∀ code ∈ [98, 102, 110, 114, 116, 92, 47, 34], isSpace code = false :=
          spaceless rfl
        rw [Bool.not_eq_false, isEscapeMark, List.contains_iff_mem] at marked
        rw [letters byte marked] at space
        cases space
      simp only [step, position, mark, Bool.false_eq_true, if_false, if_neg (other 117 rfl)] at place
      cases place
  | escapeUnit left =>
      simp only [step, position] at place
      split at place
      · split at place
        · cases place
        · cases place
      · cases place
  | beginValueOrEmpty =>
      simp only [step, position, space, if_true] at place
      cases place
  | beginKeyOrEmpty =>
      simp only [step, position, space, if_true] at place
      cases place
  | error =>
      simp only [step, position] at place
      cases place

theorem atEnd_of_whole (lettered : Lettered scanner)
    (whole : Whole limit scanner) : AtEnd scanner := by
  have space : isSpace 32 = true := rfl
  apply atEnd_of_space lettered space
  rw [whole]
  exact ⟨rfl, .inl rfl⟩

theorem AtEnd.whole (ended : AtEnd scanner) : Whole limit scanner := ended.space rfl

theorem not_whole_of_error (wrong : scanner.position = .error) :
    ¬Whole limit scanner := by
  intro whole
  have place := congrArg Scanner.position whole
  simp only [step, wrong] at place
  cases place

theorem numberByte_of_space {byte : UInt8} (space : isSpace byte = true) : isNumberByte byte = false := by
  by_contra number
  rw [Bool.not_eq_false] at number
  rw [(numberByte_plain number).2.1] at space
  cases space

theorem spaces_of_whole (rest : Bytes)
    (whole : Whole limit (scan limit { position := .endValue, stack := [] } rest)) : Spaces rest := by
  induction rest with
  | nil =>
      intro byte impossible
      cases impossible
  | cons byte rest ih =>
      rw [scan_cons] at whole
      by_cases space : isSpace byte = true
      · have kept : AtEnd { position := .endValue, stack := [] } := ⟨rfl, .inl rfl⟩
        rw [kept.space space] at whole
        exact List.forall_mem_cons.mpr ⟨space, ih whole⟩
      · have wrong : (step limit { position := .endValue, stack := [] } byte).position = .error := by
          simp only [step, afterValue, if_neg space]
        exact absurd whole (not_whole_of_error (scan_error limit rest _ wrong))

theorem spaces_of_endsBefore {byte : UInt8} {rest : Bytes}
    (ended : endsBefore scanner byte = true)
    (whole : Whole limit (scan limit scanner (byte :: rest))) : Spaces (byte :: rest) := by
  have atEnd := atEnd_of_endsBefore ended
  rw [scan_cons] at whole
  by_cases space : isSpace byte = true
  · rw [atEnd.space space] at whole
    exact List.forall_mem_cons.mpr ⟨space, spaces_of_whole rest whole⟩
  · have wrong : (step limit scanner byte).position = .error := by
      obtain ⟨empty, endValue | ⟨state, number, final⟩⟩ := atEnd
      · simp only [step, endValue, empty, afterValue, if_neg space]
      · unfold endsBefore at ended
        simp only [empty, number, final, List.isEmpty_nil, Bool.true_and, Option.isNone_iff_eq_none]
          at ended
        simp only [step, number, ended, final, if_true, empty, afterValue, if_neg space]
    exact absurd whole (not_whole_of_error (scan_error limit rest _ wrong))

theorem last_cons {byte : UInt8} {text : Bytes} {p : UInt8 → Prop}
    (last : ∀ other ∈ (byte :: text).getLast?, p other) : ∀ other ∈ text.getLast?, p other := by
  intro other member
  apply last other
  rw [List.getLast?_cons, Option.mem_def.mp member]
  rfl

theorem not_spaces {byte : UInt8} {text : Bytes}
    (trimmed : ∀ other ∈ (byte :: text).getLast?, isSpace other = false) :
    ¬Spaces (byte :: text) := by
  intro spaces
  have nonempty : byte :: text ≠ [] := List.cons_ne_nil _ _
  have space := spaces _ (List.getLast_mem nonempty)
  rw [trimmed _ (List.getLast?_eq_some_getLast nonempty)] at space
  cases space

/-! ### The reader takes what was written -/

theorem readFrom_item {text rest : Bytes} (lettered : Lettered scanner)
    (whole : Whole limit (scan limit scanner text))
    (trimmed : ∀ byte ∈ text.getLast?, isSpace byte = false)
    (apart : ∀ byte ∈ rest.head?, isNumberByte byte = false) :
    readFrom limit true scanner (text ++ rest) = .value text rest := by
  induction text generalizing scanner with
  | nil =>
      have atEnd := atEnd_of_whole lettered whole
      cases rest with
      | nil => exact if_pos ⟨rfl, whole⟩
      | cons byte rest => exact if_pos (atEnd.endsBefore (apart byte rfl))
  | cons byte text ih =>
      have goesOn : ¬endsBefore scanner byte = true := by
        intro ended
        exact not_spaces trimmed (spaces_of_endsBefore ended whole)
      rw [scan_cons] at whole
      have fine : (step limit scanner byte).position ≠ .error := by
        intro wrong
        exact not_whole_of_error (scan_error limit text _ wrong) whole
      rw [List.cons_append, readFrom, if_neg goesOn, if_neg fine]
      split
      · rename_i closing
        rw [closing.2] at whole
        cases text with
        | nil => rfl
        | cons other text =>
            exact absurd (spaces_of_whole _ whole) (not_spaces (last_cons trimmed))
      · rw [ih (lettered.step byte) whole (last_cons trimmed)]
        rfl

theorem after_value {byte : UInt8} {reading : Reading} {text rest : Bytes}
    (same : reading.after byte = .value text rest) :
    ∃ later, text = byte :: later ∧ reading = .value later rest := by
  cases reading with
  | value later behind =>
      cases same
      exact ⟨later, rfl, rfl⟩
  | cut => cases same
  | bad => cases same

theorem readFrom_value {ended : Bool} {bytes text rest : Bytes}
    (lettered : Lettered scanner) (read : readFrom limit ended scanner bytes = .value text rest) :
    bytes = text ++ rest ∧ Whole limit (scan limit scanner text) ∧
      ∀ byte ∈ text.getLast?, isSpace byte = false := by
  induction bytes generalizing scanner text with
  | nil =>
      unfold readFrom at read
      split at read
      · rename_i whole
        cases read
        exact ⟨rfl, whole.2, fun byte impossible => by cases impossible⟩
      · cases read
  | cons byte bytes ih =>
      unfold readFrom at read
      split at read
      · rename_i ended
        cases read
        exact ⟨rfl, (atEnd_of_endsBefore ended).whole, fun byte impossible => by cases impossible⟩
      rename_i goesOn
      split at read
      · cases read
      split at read
      · rename_i closing
        cases read
        refine ⟨rfl, ?_, ?_⟩
        · rw [scan_cons, closing.2]
          exact AtEnd.whole ⟨rfl, .inl rfl⟩
        · intro other same
          cases same
          rcases closing.1 with brace | bracket
          · rw [brace]
            rfl
          · rw [bracket]
            rfl
      · obtain ⟨later, rfl, inner⟩ := after_value read
        obtain ⟨split, whole, trimmed⟩ := ih (lettered.step byte) inner
        refine ⟨by rw [split, List.cons_append], whole, ?_⟩
        intro other last
        cases later with
        | cons second later =>
            rw [List.getLast?_cons_cons] at last
            exact trimmed other last
        | nil =>
            cases last
            by_contra space
            rw [Bool.not_eq_false] at space
            have atEnd := atEnd_of_space lettered space
              (atEnd_of_whole (lettered.step byte) whole)
            exact goesOn (atEnd.endsBefore (numberByte_of_space space))

theorem readValue_item {text rest : Bytes} (item : IsItem limit text)
    (apart : ∀ byte ∈ rest.head?, isNumberByte byte = false) :
    readValue limit true (text ++ rest) = .value text rest :=
  readFrom_item lettered_start (of_decide_eq_true item.accepted) item.trimmed apart

theorem isItem_of_readValue {ended : Bool} {bytes text rest : Bytes}
    (read : readValue limit ended bytes = .value text rest) :
    bytes = text ++ rest ∧ IsItem limit text := by
  obtain ⟨split, whole, trimmed⟩ := readFrom_value lettered_start read
  exact ⟨split, decide_eq_true whole, trimmed⟩

theorem IsItem.of_limit {deepest : Nat} {text : Bytes} (item : IsItem (some deepest) text) :
    IsItem none text :=
  ⟨accepts_of_limit item.accepted, item.trimmed⟩

theorem IsItem.begins {text : Bytes} (item : IsItem limit text) (tail : Bytes) :
    ∃ byte rest, (text ++ tail).dropWhile isSpace = byte :: rest ∧ byte ≠ 93 ∧ byte ≠ 125 := by
  have whole : Whole limit (scan limit start text) := of_decide_eq_true item.accepted
  clear item
  induction text with
  | nil =>
      have place := congrArg Scanner.position whole
      cases place
  | cons byte text ih =>
      rw [scan_cons] at whole
      rw [List.cons_append, List.dropWhile_cons]
      by_cases space : isSpace byte = true
      · rw [if_pos space]
        have same : step limit start byte = start := by
          simp only [step, start, beginValue, space, if_true]
        rw [same] at whole
        exact ih whole
      · rw [if_neg space]
        have opens : ∀ code : UInt8, (beginValue limit [] code).position = .error →
            byte ≠ code := by
          intro code wrong same
          rw [same] at whole
          exact not_whole_of_error (scan_error limit text _ wrong) whole
        exact ⟨byte, text ++ tail, rfl, opens 93 rfl, opens 125 rfl⟩

theorem Items.inv {first : Bool} {items : List Bytes} {bytes rest : Bytes}
    (written : Items limit first items bytes rest) :
    (items = [] ∧ bytes = rest) ∨ ∃ gap text later others, items = text :: others ∧
      bytes = gap ++ (text ++ later) ∧ Separates first gap ∧ IsItem limit text ∧
        Items limit false others later rest := by
  cases written with
  | done => exact .inl ⟨rfl, rfl⟩
  | more gapped item others => exact .inr ⟨_, _, _, _, rfl, rfl, gapped, item, others⟩

theorem dropWhile_comma {spaces : Bytes} (all : Spaces spaces) (rest : Bytes) :
    (spaces ++ 44 :: rest).dropWhile isSpace = 44 :: rest :=
  dropWhile_append_of_head all (fun byte same => by cases same; rfl)

theorem not_closed {first : Bool} {gap text later : Bytes} (gapped : Separates first gap)
    (item : IsItem limit text) : ¬Closed (gap ++ (text ++ later)) := by
  intro closed
  cases first with
  | true =>
      have none : gap = [] := gapped
      rw [none, List.nil_append] at closed
      obtain ⟨byte, rest, begins, bracket, brace⟩ := item.begins later
      have closes := closed byte (by rw [begins]; rfl)
      rcases closes with same | same
      · exact bracket same
      · exact brace same
  | false =>
      obtain ⟨spaces, all, rfl⟩ := gapped
      rw [List.append_assoc] at closed
      have closes := closed 44 (by
        rw [List.singleton_append, dropWhile_comma all]
        rfl)
      rcases closes with same | same
      · cases same
      · cases same

theorem separates_inj {first : Bool} {gap other left right : Bytes} (one : Separates first gap)
    (two : Separates first other) (same : gap ++ left = other ++ right) :
    gap = other ∧ left = right := by
  cases first with
  | true =>
      have none : gap = [] := one
      have empty : other = [] := two
      rw [none, empty] at same ⊢
      exact ⟨rfl, same⟩
  | false =>
      obtain ⟨spaces, all, rfl⟩ := one
      obtain ⟨blanks, blank, rfl⟩ := two
      have dropped := congrArg (List.dropWhile isSpace) same
      rw [List.append_assoc, List.append_assoc, List.singleton_append, List.singleton_append,
        dropWhile_comma all, dropWhile_comma blank] at dropped
      have rests := (List.cons.inj dropped).2
      rw [rests] at same
      exact ⟨List.append_cancel_right same, rests⟩

theorem Items.apart {items : List Bytes} {bytes rest : Bytes}
    (written : Items limit false items bytes rest) (closed : Closed rest) :
    ∀ byte ∈ bytes.head?, isNumberByte byte = false := by
  intro byte head
  rcases written.inv with ⟨_none, rfl⟩ | ⟨gap, text, later, others, _cons, rfl, gapped, _item, _rest⟩
  · cases bytes with
    | nil => cases head
    | cons first bytes =>
        cases head
        by_cases space : isSpace byte = true
        · exact numberByte_of_space space
        · have closes := closed byte (by rw [List.dropWhile_cons, if_neg space]; rfl)
          rcases closes with same | same
          · rw [same]
            rfl
          · rw [same]
            rfl
  · obtain ⟨spaces, all, rfl⟩ := gapped
    cases spaces with
    | nil =>
        cases head
        rfl
    | cons space spaces =>
        cases head
        exact numberByte_of_space (all byte List.mem_cons_self)

theorem Items.unique {items others : List Bytes} {first : Bool} {bytes rest behind : Bytes}
    (one : Items limit first items bytes rest) (two : Items limit first others bytes behind)
    (closed : Closed rest) (shut : Closed behind) : items = others ∧ rest = behind := by
  induction items generalizing first others bytes with
  | nil =>
      rcases one.inv with ⟨_none, rfl⟩ | ⟨gap, text, later, tail, impossible, _rest⟩
      · rcases two.inv with ⟨rfl, same⟩ | ⟨gap, text, later, tail, _cons, split, gapped, item, _rest⟩
        · exact ⟨rfl, same⟩
        · rw [split] at closed
          exact absurd closed (not_closed gapped item)
      · cases impossible
  | cons item items ih =>
      rcases one.inv with ⟨impossible, _same⟩ |
        ⟨gap, text, later, tail, cons, split, gapped, isItem, rest_⟩
      · cases impossible
      cases cons
      rcases two.inv with ⟨rfl, rfl⟩ |
        ⟨other, text, behind_, tail, rfl, same, separated, otherItem, follows_⟩
      · rw [split] at shut
        exact absurd shut (not_closed gapped isItem)
      · rw [split] at same
        obtain ⟨_gaps, texts⟩ := separates_inj gapped separated same
        have readOne := readValue_item isItem (rest_.apart closed)
        rw [texts, readValue_item otherItem (follows_.apart shut)] at readOne
        cases readOne
        obtain ⟨rests, ends⟩ := ih rest_ follows_
        rw [rests]
        exact ⟨rfl, ends⟩

theorem lead_inj {lead other body rest : Bytes} (spaces : Spaces lead) (blank : Spaces other)
    (same : lead ++ 91 :: body = other ++ 91 :: rest) : body = rest := by
  have dropped := congrArg (List.dropWhile isSpace) same
  have bracket : ∀ text : Bytes, ∀ byte ∈ (91 :: text).head?, isSpace byte = false := by
    intro text byte head
    cases head
    rfl
  rw [dropWhile_append_of_head spaces (bracket body),
    dropWhile_append_of_head blank (bracket rest)] at dropped
  exact (List.cons.inj dropped).2

theorem closed_bracket {gap : Bytes} (spaces : Spaces gap) (trail : Bytes) :
    Closed (gap ++ 93 :: trail) := by
  intro byte head
  rw [dropWhile_append_of_head spaces (fun byte same => by cases same; rfl)] at head
  cases head
  exact .inl rfl

theorem IsArray.not_cutShort {items : List Bytes} {bytes : Bytes} (array : IsArray limit items bytes) :
    ¬CutShort limit bytes := by
  intro cut
  obtain ⟨lead, body, gap, trail, spaces, rfl, whole, gaps, trails⟩ := array
  obtain ⟨front, contents, others, rest, blank, parts, found, closed, apart⟩ := cut
  rw [← lead_inj spaces blank parts] at found
  have ends := (whole.unique found (closed_bracket gaps trail) closed).2
  exact apart gap trail gaps trails ends.symm

theorem isArray_of_not_cutShort {lead body rest : Bytes} {items : List Bytes} (spaces : Spaces lead)
    (written : Items limit true items body rest) (closed : Closed rest)
    (complete : ¬CutShort limit (lead ++ 91 :: body)) : IsArray limit items (lead ++ 91 :: body) := by
  by_contra noArray
  apply complete
  refine ⟨lead, body, items, rest, spaces, rfl, written, closed, ?_⟩
  intro gap trail gaps trails same
  rw [same] at written
  exact noArray ⟨lead, body, gap, trail, spaces, rfl, written, gaps, trails⟩

theorem Items.extend {first : Bool} {items : List Bytes} {bytes rest : Bytes}
    (written : Items limit first items bytes rest) (more : Bytes) :
    Items limit first items (bytes ++ more) (rest ++ more) := by
  induction written with
  | done => exact .done
  | more gapped item _others ih =>
      rw [List.append_assoc, List.append_assoc]
      exact .more gapped item ih

theorem IsArray.of_prefix {items others : List Bytes} {bytes more : Bytes}
    (first : IsArray limit items bytes) (whole : IsArray limit others (bytes ++ more)) :
    items = others ∧ Spaces more := by
  obtain ⟨lead, body, gap, trail, spaces, rfl, written, gaps, _trails⟩ := first
  obtain ⟨front, contents, space, tail, blank, parts, found, blanks, tails⟩ := whole
  rw [List.append_assoc, List.cons_append] at parts
  rw [← lead_inj spaces blank parts] at found
  have extended := written.extend more
  rw [List.append_assoc, List.cons_append] at extended
  obtain ⟨same, ends⟩ := extended.unique found (closed_bracket gaps (trail ++ more))
    (closed_bracket blanks tail)
  refine ⟨same, ?_⟩
  have bracket : ∀ text : Bytes, ∀ byte ∈ (93 :: text).head?, isSpace byte = false := by
    intro text byte head
    cases head
    rfl
  have dropped := congrArg (List.dropWhile isSpace) ends
  rw [dropWhile_append_of_head gaps (bracket _), dropWhile_append_of_head blanks (bracket _)] at dropped
  intro byte member
  apply tails byte
  rw [← (List.cons.inj dropped).2]
  exact List.mem_append_right trail member

end JsonStream
