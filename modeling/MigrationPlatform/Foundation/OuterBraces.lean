/-
The outermost braces of a text, found without a parser.

A scan counts braces and skips strings. It reports what stands between an opening
brace that nothing encloses and the brace that closes it. On the bytes of a JSON
object it keeps step with the scanner of the grammar: it is in a string where that
one is, and has as many braces open as there are objects. So it reports an object
when its last byte has come, and nothing before.
-/

import MigrationPlatform.Foundation.JsonStream

namespace OuterBraces

open JsonText JsonStream Utf8 Trimming

/-- `text` is what has come since the outermost open brace. -/
structure Scan where
  depth : Int := 0
  text : Option Bytes := none
  inString : Bool := false
  escape : Bool := false
  found : List Bytes := []
deriving DecidableEq, Repr

def next (s : Scan) (byte : UInt8) : Scan :=
  let text := s.text.map (fun text => text ++ [byte])
  if s.inString = true then
    { s with
      text := text
      escape := !s.escape && byte == 92
      inString := s.escape || byte != 34 }
  else if byte = 34 then { s with text := text, inString := true }
  else if byte = 123 then
    { s with depth := s.depth + 1, text := if s.depth = 0 then some [byte] else text }
  else if byte = 125 then
    if s.depth - 1 = 0 then
      { s with depth := s.depth - 1, text := none, found := s.found ++ text.toList }
    else { s with depth := s.depth - 1, text := text }
  else { s with text := text }

def run (s : Scan) (bytes : Bytes) : Scan := bytes.foldl next s

theorem run_append (s : Scan) (first second : Bytes) :
    run s (first ++ second) = run (run s first) second := List.foldl_append

theorem run_cons (s : Scan) (byte : UInt8) (rest : Bytes) :
    run s (byte :: rest) = run (next s byte) rest := rfl

/-! ### In step with the grammar -/

def inside : Position → Bool
  | .inString | .escape | .escapeUnit _ => true
  | _ => false

def objects (stack : List Frame) : Nat := stack.countP (fun frame => decide (frame ≠ .arrayValue))

structure Follows (scanner : Scanner) (s : Scan) : Prop where
  inString : s.inString = inside scanner.position
  escape : s.escape = decide (scanner.position = .escape)
  depth : s.depth = objects scanner.stack

structure Standing (scanner : Scanner) : Prop where
  keyed : scanner.position = .beginKeyOrEmpty → ∃ outer, scanner.stack = .objectKey :: outer
  lettered : ∀ rest, scanner.position = .literal rest → ∀ byte ∈ rest, 97 ≤ byte ∧ byte ≤ 122

def Quiet (byte : UInt8) : Prop := byte ≠ 34 ∧ byte ≠ 123 ∧ byte ≠ 125

section Next

variable {s : Scan} {byte : UInt8}

theorem next_quiet (outside : s.inString = false) (quiet : Quiet byte) :
    next s byte = { s with text := s.text.map (fun text => text ++ [byte]) } := by
  unfold next
  simp only [outside, Bool.false_eq_true, if_false, if_neg quiet.1, if_neg quiet.2.1,
    if_neg quiet.2.2]

theorem next_quote (outside : s.inString = false) :
    next s 34 = { s with text := s.text.map (fun text => text ++ [34]), inString := true } := by
  unfold next
  simp only [outside, Bool.false_eq_true, if_false, if_true]

theorem next_open (outside : s.inString = false) :
    next s 123 = { s with
      depth := s.depth + 1
      text := if s.depth = 0 then some [123] else s.text.map (fun text => text ++ [123]) } := by
  unfold next
  simp only [outside, Bool.false_eq_true, if_false, if_true, (by decide : ¬(123 : UInt8) = 34)]

theorem next_close_depth (outside : s.inString = false) :
    (next s 125).inString = false ∧ (next s 125).escape = s.escape ∧
      (next s 125).depth = s.depth - 1 := by
  unfold next
  simp only [outside, Bool.false_eq_true, if_false, if_true, (by decide : ¬(125 : UInt8) = 34),
    (by decide : ¬(125 : UInt8) = 123)]
  split
  · exact ⟨rfl, rfl, rfl⟩
  · exact ⟨rfl, rfl, rfl⟩

end Next

section Steps

variable {scanner later : Scanner} {stack : List Frame} {s : Scan} {byte : UInt8}

theorem quiet_space (space : isSpace byte = true) : Quiet byte := by
  rcases eq_of_isSpace space with rfl | rfl | rfl | rfl
  · exact ⟨by decide, by decide, by decide⟩
  · exact ⟨by decide, by decide, by decide⟩
  · exact ⟨by decide, by decide, by decide⟩
  · exact ⟨by decide, by decide, by decide⟩

theorem quiet_number (number : isNumberByte byte = true) : Quiet byte := by
  refine ⟨?_, ?_, ?_⟩
  all_goals
    intro same
    rw [same] at number
    exact absurd number (by decide)

theorem escape_of_outside {position : Position} (outside : inside position = false) :
    position ≠ .escape := by
  intro same
  rw [same] at outside
  cases outside

theorem follows_quiet (follows : Follows scanner s) (outside : inside scanner.position = false)
    (quiet : Quiet byte) (stays : inside later.position = false)
    (same : objects later.stack = objects scanner.stack) : Follows later (next s byte) := by
  rw [next_quiet (follows.inString.trans outside) quiet]
  refine ⟨follows.inString.trans (outside.trans stays.symm), ?_, ?_⟩
  · rw [decide_eq_false (escape_of_outside stays)]
    exact follows.escape.trans (decide_eq_false (escape_of_outside outside))
  · rw [same]
    exact follows.depth

theorem follows_quote (follows : Follows scanner s) (outside : inside scanner.position = false) :
    Follows { position := .inString, stack := scanner.stack } (next s 34) := by
  rw [next_quote (follows.inString.trans outside)]
  exact ⟨rfl, follows.escape.trans (decide_eq_false (escape_of_outside outside)), follows.depth⟩

theorem follows_open (follows : Follows scanner s) (outside : inside scanner.position = false) :
    Follows { position := .beginKeyOrEmpty, stack := .objectKey :: scanner.stack } (next s 123) := by
  rw [next_open (follows.inString.trans outside)]
  refine ⟨follows.inString.trans outside,
    follows.escape.trans (decide_eq_false (escape_of_outside outside)), ?_⟩
  have more : objects (.objectKey :: scanner.stack) = objects scanner.stack + 1 :=
    List.countP_cons_of_pos rfl
  rw [more, Int.natCast_add]
  dsimp only
  rw [follows.depth]
  rfl

theorem follows_close (follows : Follows scanner s) (outside : inside scanner.position = false)
    {frame : Frame} (object : frame ≠ .arrayValue) (shape : scanner.stack = frame :: stack) :
    Follows { position := .endValue, stack := stack } (next s 125) := by
  obtain ⟨inString, escape, depth⟩ := next_close_depth (follows.inString.trans outside)
  refine ⟨inString,
    escape.trans (follows.escape.trans (decide_eq_false (escape_of_outside outside))), ?_⟩
  have fewer : objects scanner.stack = objects stack + 1 := by
    rw [shape]
    exact List.countP_cons_of_pos (decide_eq_true object)
  rw [depth, follows.depth, fewer]
  dsimp only
  omega

theorem follows_afterValue (follows : Follows scanner s) (outside : inside scanner.position = false)
    (fine : (afterValue scanner.stack byte).position ≠ .error) :
    Follows (afterValue scanner.stack byte) (next s byte) := by
  revert fine
  unfold afterValue
  split
  · rename_i space
    intro _fine
    exact follows_quiet follows outside (quiet_space space) rfl rfl
  · split
    · intro wrong
      exact absurd rfl wrong
    · rename_i outer shape
      split
      · rename_i colon
        intro _fine
        rw [colon]
        apply follows_quiet follows outside ⟨by decide, by decide, by decide⟩ rfl
        rw [shape]
        rfl
      · intro wrong
        exact absurd rfl wrong
    · rename_i outer shape
      split
      · rename_i comma
        intro _fine
        rw [comma]
        apply follows_quiet follows outside ⟨by decide, by decide, by decide⟩ rfl
        rw [shape]
        rfl
      · split
        · rename_i brace
          intro _fine
          rw [brace]
          exact follows_close follows outside (fun impossible => by cases impossible) shape
        · intro wrong
          exact absurd rfl wrong
    · rename_i outer shape
      split
      · rename_i comma
        intro _fine
        rw [comma]
        apply follows_quiet follows outside ⟨by decide, by decide, by decide⟩ rfl
        rw [shape]
      · split
        · rename_i bracket
          intro _fine
          rw [bracket]
          apply follows_quiet follows outside ⟨by decide, by decide, by decide⟩ rfl
          rw [shape]
          rfl
        · intro wrong
          exact absurd rfl wrong

theorem follows_beginValue (follows : Follows scanner s) (outside : inside scanner.position = false)
    (fine : (beginValue none scanner.stack byte).position ≠ .error) :
    Follows (beginValue none scanner.stack byte) (next s byte) := by
  revert fine
  unfold beginValue
  split
  · rename_i space
    intro _fine
    exact follows_quiet follows outside (quiet_space space) rfl rfl
  split
  · rename_i brace
    intro _fine
    rw [brace]
    exact follows_open follows outside
  split
  · rename_i bracket
    intro _fine
    rw [bracket]
    exact follows_quiet follows outside ⟨by decide, by decide, by decide⟩ rfl rfl
  split
  · rename_i quote
    intro _fine
    rw [quote]
    exact follows_quote follows outside
  split
  · rename_i letter
    intro _fine
    rw [letter]
    exact follows_quiet follows outside ⟨by decide, by decide, by decide⟩ rfl rfl
  split
  · rename_i letter
    intro _fine
    rw [letter]
    exact follows_quiet follows outside ⟨by decide, by decide, by decide⟩ rfl rfl
  split
  · rename_i letter
    intro _fine
    rw [letter]
    exact follows_quiet follows outside ⟨by decide, by decide, by decide⟩ rfl rfl
  split
  · rename_i state starts
    intro _fine
    exact follows_quiet follows outside (quiet_number (numberStart_byte starts)) rfl rfl
  · intro wrong
    exact absurd rfl wrong

theorem follows_beginKey (follows : Follows scanner s) (outside : inside scanner.position = false)
    (fine : (beginKey scanner.stack byte).position ≠ .error) :
    Follows (beginKey scanner.stack byte) (next s byte) := by
  revert fine
  unfold beginKey
  split
  · rename_i space
    intro _fine
    exact follows_quiet follows outside (quiet_space space) rfl rfl
  split
  · rename_i quote
    intro _fine
    rw [quote]
    exact follows_quote follows outside
  · intro wrong
    exact absurd rfl wrong

theorem next_inside (follows : Follows scanner s) (string : inside scanner.position = true) :
    next s byte = { s with
      text := s.text.map (fun text => text ++ [byte])
      escape := !s.escape && byte == 92
      inString := s.escape || byte != 34 } := by
  unfold next
  rw [if_pos (follows.inString.trans string)]

theorem follows_inside (follows : Follows scanner s) (string : inside scanner.position = true)
    (inString : inside later.position = (decide (scanner.position = .escape) || byte != 34))
    (escape : decide (later.position = .escape) =
      (!decide (scanner.position = .escape) && byte == 92))
    (same : later.stack = scanner.stack) : Follows later (next s byte) := by
  rw [next_inside follows string]
  refine ⟨?_, ?_, ?_⟩
  · rw [inString, ← follows.escape]
  · rw [escape, ← follows.escape]
  · rw [same]
    exact follows.depth

theorem quiet_letter (letter : 97 ≤ byte ∧ byte ≤ 122) : Quiet byte := by
  refine ⟨?_, ?_, ?_⟩
  · intro same
    rw [same] at letter
    exact absurd letter.1 (by decide)
  · intro same
    rw [same] at letter
    exact absurd letter.2 (by decide)
  · intro same
    rw [same] at letter
    exact absurd letter.2 (by decide)

theorem hex_plain (hex : (hexValue? byte).isSome = true) : byte ≠ 34 ∧ byte ≠ 92 := by
  constructor
  · intro same
    rw [same] at hex
    exact absurd hex (by decide)
  · intro same
    rw [same] at hex
    exact absurd hex (by decide)

theorem Follows.step (follows : Follows scanner s) (standing : Standing scanner)
    (fine : (JsonText.step none scanner byte).position ≠ .error) :
    Follows (JsonText.step none scanner byte) (next s byte) := by
  obtain ⟨position, stack⟩ := scanner
  revert fine
  cases position with
  | beginValue => exact follows_beginValue follows rfl
  | beginValueOrEmpty =>
      simp only [JsonText.step]
      split
      · rename_i space
        intro _fine
        exact follows_quiet follows rfl (quiet_space space) rfl rfl
      split
      · exact follows_afterValue follows rfl
      · exact follows_beginValue follows rfl
  | beginKey => exact follows_beginKey follows rfl
  | beginKeyOrEmpty =>
      obtain ⟨outer, shape⟩ := standing.keyed rfl
      simp only [JsonText.step]
      split
      · rename_i space
        intro _fine
        exact follows_quiet follows rfl (quiet_space space) rfl rfl
      split
      · rename_i brace
        intro _fine
        rw [brace]
        have known : stack = .objectKey :: outer := shape
        rw [known, List.tail_cons]
        exact follows_close follows rfl (fun impossible => by cases impossible) shape
      · exact follows_beginKey follows rfl
  | inString =>
      simp only [JsonText.step]
      split
      · rename_i quote
        intro _fine
        rw [quote]
        exact follows_inside follows rfl rfl rfl rfl
      split
      · rename_i slash
        intro _fine
        rw [slash]
        exact follows_inside follows rfl rfl rfl rfl
      split
      · intro wrong
        exact absurd rfl wrong
      · rename_i other notSlash _printable
        intro _fine
        apply follows_inside follows rfl
        · exact (bne_iff_ne.mpr other).symm
        · exact (beq_eq_false_iff_ne.mpr notSlash).symm
        · rfl
  | escape =>
      simp only [JsonText.step]
      split
      · intro _fine
        exact follows_inside follows rfl rfl rfl rfl
      split
      · intro _fine
        exact follows_inside follows rfl rfl rfl rfl
      · intro wrong
        exact absurd rfl wrong
  | escapeUnit left =>
      simp only [JsonText.step]
      split
      · rename_i hex
        obtain ⟨notQuote, notSlash⟩ := hex_plain hex
        have quoted := (bne_iff_ne.mpr notQuote).symm
        have slashed := (beq_eq_false_iff_ne.mpr notSlash).symm
        cases left with
        | zero =>
            intro _fine
            exact follows_inside follows rfl quoted slashed rfl
        | succ fewer =>
            intro _fine
            exact follows_inside follows rfl quoted slashed rfl
      · intro wrong
        exact absurd rfl wrong
  | number state =>
      simp only [JsonText.step]
      split
      · rename_i after goesOn
        intro _fine
        exact follows_quiet follows rfl (quiet_number (next_byte goesOn)) rfl rfl
      split
      · exact follows_afterValue follows rfl
      · intro wrong
        exact absurd rfl wrong
  | literal rest =>
      simp only [JsonText.step]
      split
      · intro wrong
        exact absurd rfl wrong
      · rename_i first others
        split
        · rename_i same
          intro _fine
          have letter := standing.lettered _ rfl first List.mem_cons_self
          rw [same]
          by_cases last : others = []
          · rw [if_pos last]
            exact follows_quiet follows rfl (quiet_letter letter) rfl rfl
          · rw [if_neg last]
            exact follows_quiet follows rfl (quiet_letter letter) rfl rfl
        · intro wrong
          exact absurd rfl wrong
  | endValue => exact follows_afterValue follows rfl
  | error =>
      intro wrong
      exact absurd rfl wrong

end Steps

/-! ### What the grammar knows of its states -/

def plain : Position → Bool
  | .beginKeyOrEmpty | .literal _ => false
  | _ => true

theorem standing_of_plain {scanner : Scanner} (isPlain : plain scanner.position = true) :
    Standing scanner := by
  refine ⟨?_, ?_⟩
  · intro place
    rw [place] at isPlain
    cases isPlain
  · intro rest place
    rw [place] at isPlain
    cases isPlain

theorem Standing.spaceless {scanner : Scanner} (standing : Standing scanner) : Lettered scanner := by
  intro rest place byte member
  have letter := standing.lettered rest place byte member
  by_contra space
  rw [Bool.not_eq_false] at space
  rcases eq_of_isSpace space with same | same | same | same
  all_goals
    rw [same] at letter
    exact absurd letter.1 (by decide)

theorem standing_start : Standing start := standing_of_plain rfl

theorem standing_afterValue (stack : List Frame) (byte : UInt8) :
    Standing (afterValue stack byte) := by
  unfold afterValue
  repeat' split
  all_goals exact standing_of_plain rfl

theorem standing_beginKey (stack : List Frame) (byte : UInt8) : Standing (beginKey stack byte) := by
  unfold beginKey
  repeat' split
  all_goals exact standing_of_plain rfl

theorem standing_literal {letters : Bytes} (stack : List Frame)
    (all : letters.all (fun byte => decide (97 ≤ byte ∧ byte ≤ 122)) = true) :
    Standing { position := .literal letters, stack := stack } := by
  refine ⟨(fun impossible => by cases impossible), ?_⟩
  intro rest place byte member
  cases place
  exact of_decide_eq_true (List.all_eq_true.mp all byte member)

theorem standing_beginValue (stack : List Frame) (byte : UInt8) :
    Standing (beginValue none stack byte) := by
  unfold beginValue
  split
  · exact standing_of_plain rfl
  split
  · exact ⟨fun _ => ⟨stack, rfl⟩, fun _ impossible => by cases impossible⟩
  split
  · exact standing_of_plain rfl
  split
  · exact standing_of_plain rfl
  split
  · exact standing_literal stack rfl
  split
  · exact standing_literal stack rfl
  split
  · exact standing_literal stack rfl
  split
  · exact standing_of_plain rfl
  · exact standing_of_plain rfl

theorem Standing.step {scanner : Scanner} (standing : Standing scanner) (byte : UInt8) :
    Standing (JsonText.step none scanner byte) := by
  obtain ⟨position, stack⟩ := scanner
  cases position with
  | beginValue => exact standing_beginValue stack byte
  | beginValueOrEmpty =>
      simp only [JsonText.step]
      split
      · exact standing
      split
      · exact standing_afterValue stack byte
      · exact standing_beginValue stack byte
  | beginKey => exact standing_beginKey stack byte
  | beginKeyOrEmpty =>
      simp only [JsonText.step]
      split
      · exact standing
      split
      · exact standing_of_plain rfl
      · exact standing_beginKey stack byte
  | literal rest =>
      simp only [JsonText.step]
      split
      · exact standing_of_plain rfl
      · rename_i first others
        split
        · refine ⟨?_, ?_⟩
          · intro place
            dsimp only at place
            split at place
            · cases place
            · cases place
          · intro letters place other member
            dsimp only at place
            split at place
            · cases place
            · cases place
              exact standing.lettered _ rfl other (List.mem_cons_of_mem _ member)
        · exact standing_of_plain rfl
  | number state =>
      simp only [JsonText.step]
      split
      · exact standing_of_plain rfl
      split
      · exact standing_afterValue stack byte
      · exact standing_of_plain rfl
  | endValue => exact standing_afterValue stack byte
  | error => exact standing
  | inString =>
      simp only [JsonText.step]
      repeat' split
      all_goals exact standing_of_plain rfl
  | escape =>
      simp only [JsonText.step]
      repeat' split
      all_goals exact standing_of_plain rfl
  | escapeUnit left =>
      simp only [JsonText.step]
      repeat' split
      all_goals exact standing_of_plain rfl

def Rooted (scanner : Scanner) : Prop :=
  (∃ frame, scanner.stack.getLast? = some frame ∧ frame ≠ .arrayValue) ∨
    (scanner.stack = [] ∧ (scanner.position = .endValue ∨ scanner.position = .error))

inductive Shifts (stack : List Frame) : Scanner → Prop
  | same (position : Position) : Shifts stack { position := position, stack := stack }
  | push (position : Position) (frame : Frame) :
      Shifts stack { position := position, stack := frame :: stack }
  | swap (position : Position) {frame other : Frame} {outer : List Frame}
      (shape : stack = frame :: outer) (object : other ≠ .arrayValue) :
      Shifts stack { position := position, stack := other :: outer }
  | pop {frame : Frame} {outer : List Frame} (shape : stack = frame :: outer) :
      Shifts stack { position := .endValue, stack := outer }

theorem shifts_afterValue (stack : List Frame) (byte : UInt8) :
    Shifts stack (afterValue stack byte) := by
  unfold afterValue
  split
  · exact .same .endValue
  · split
    · exact .same .error
    · split
      · exact .swap .beginValue rfl (fun impossible => by cases impossible)
      · exact .same .error
    · split
      · exact .swap .beginKey rfl (fun impossible => by cases impossible)
      split
      · exact .pop rfl
      · exact .same .error
    · split
      · exact .same .beginValue
      split
      · exact .pop rfl
      · exact .same .error

theorem shifts_beginValue (stack : List Frame) (byte : UInt8) :
    Shifts stack (beginValue none stack byte) := by
  unfold beginValue
  split
  · exact .same .beginValue
  split
  · exact .push .beginKeyOrEmpty .objectKey
  split
  · exact .push .beginValueOrEmpty .arrayValue
  repeat' split
  all_goals exact .same _

theorem shifts_beginKey (stack : List Frame) (byte : UInt8) :
    Shifts stack (beginKey stack byte) := by
  unfold beginKey
  repeat' split
  all_goals exact .same _

theorem shifts_step {scanner : Scanner} (standing : Standing scanner) (byte : UInt8) :
    Shifts scanner.stack (JsonText.step none scanner byte) := by
  obtain ⟨position, stack⟩ := scanner
  cases position with
  | beginValue => exact shifts_beginValue stack byte
  | beginValueOrEmpty =>
      simp only [JsonText.step]
      split
      · exact .same _
      split
      · exact shifts_afterValue stack byte
      · exact shifts_beginValue stack byte
  | beginKey => exact shifts_beginKey stack byte
  | beginKeyOrEmpty =>
      obtain ⟨outer, shape⟩ := standing.keyed rfl
      have known : stack = .objectKey :: outer := shape
      simp only [JsonText.step]
      split
      · exact .same _
      split
      · rw [known]
        exact .pop rfl
      · exact shifts_beginKey stack byte
  | number state =>
      simp only [JsonText.step]
      split
      · exact .same _
      split
      · exact shifts_afterValue stack byte
      · exact .same _
  | endValue => exact shifts_afterValue stack byte
  | error => exact .same _
  | inString =>
      simp only [JsonText.step]
      repeat' split
      all_goals exact .same _
  | escape =>
      simp only [JsonText.step]
      repeat' split
      all_goals exact .same _
  | escapeUnit left =>
      simp only [JsonText.step]
      repeat' split
      all_goals exact .same _
  | literal rest =>
      simp only [JsonText.step]
      repeat' split
      all_goals exact .same _

theorem objects_pos {stack : List Frame} {frame : Frame} (last : stack.getLast? = some frame)
    (object : frame ≠ .arrayValue) : 0 < objects stack :=
  List.countP_pos_iff.mpr ⟨frame, List.mem_of_getLast? last, decide_eq_true object⟩

theorem Rooted.step {scanner : Scanner} (rooted : Rooted scanner) (standing : Standing scanner)
    (byte : UInt8) : Rooted (JsonText.step none scanner byte) := by
  rcases rooted with ⟨root, last, object⟩ | ⟨empty, place⟩
  · have shifts := shifts_step standing byte
    generalize JsonText.step none scanner byte = later at shifts
    cases shifts with
    | same position => exact .inl ⟨root, last, object⟩
    | push position frame =>
        refine .inl ⟨root, ?_, object⟩
        dsimp only
        rw [List.getLast?_cons, last]
        rfl
    | @swap position frame other outer shape swapped =>
        rw [shape] at last
        left
        cases outer with
        | nil => exact ⟨other, rfl, swapped⟩
        | cons inner rest => exact ⟨root, by rw [← last]; rfl, object⟩
    | @pop frame outer shape =>
        rw [shape] at last
        cases outer with
        | nil => exact .inr ⟨rfl, .inl rfl⟩
        | cons inner rest => exact .inl ⟨root, by rw [← last]; rfl, object⟩
  · right
    obtain ⟨position, stack⟩ := scanner
    cases empty
    rcases place with rfl | rfl
    · simp only [JsonText.step, afterValue]
      split
      · exact ⟨rfl, .inl rfl⟩
      · exact ⟨rfl, .inr rfl⟩
    · exact ⟨rfl, .inr rfl⟩

/-! ### The bytes of an object -/

theorem next_text {s : Scan} {text : Bytes} (byte : UInt8) (opened : s.text = some text)
    (deep : 0 < s.depth) :
    ((next s byte).depth ≠ 0 → (next s byte).text = some (text ++ [byte]) ∧
      (next s byte).found = s.found) ∧
    ((next s byte).depth = 0 → (next s byte).text = none ∧
      (next s byte).found = s.found ++ [text ++ [byte]]) := by
  have nonzero : s.depth ≠ 0 := by omega
  unfold next
  rw [opened]
  dsimp only
  split
  · exact ⟨fun _ => ⟨rfl, rfl⟩, fun flat => absurd flat nonzero⟩
  split
  · exact ⟨fun _ => ⟨rfl, rfl⟩, fun flat => absurd flat nonzero⟩
  split
  · have deeper : s.depth + 1 ≠ 0 := by omega
    exact ⟨fun _ => ⟨rfl, rfl⟩, fun flat => absurd flat deeper⟩
  split
  · split
    · rename_i flat
      exact ⟨fun other => absurd flat other, fun _ => ⟨rfl, rfl⟩⟩
    · rename_i other
      exact ⟨fun _ => ⟨rfl, rfl⟩, fun flat => absurd flat other⟩
  · exact ⟨fun _ => ⟨rfl, rfl⟩, fun flat => absurd flat nonzero⟩

structure IsObject (text : Bytes) : Prop where
  item : IsItem none text
  opens : text.head? = some 123

section Objects

variable {text front back : Bytes} {found : List Bytes}

theorem IsObject.whole (object : IsObject text) : Whole none (scan none start text) :=
  of_decide_eq_true object.item.accepted

theorem fine_of_whole (object : IsObject text) (split : text = front ++ back) :
    (scan none start front).position ≠ .error := by
  intro wrong
  have whole := object.whole
  rw [split, scan_append] at whole
  exact not_whole_of_error (scan_error none back _ wrong) whole

theorem standing_scan (bytes : Bytes) : Standing (scan none start bytes) := by
  induction bytes using List.reverseRecOn with
  | nil => exact standing_start
  | append_singleton front byte ih =>
      rw [scan_append]
      exact ih.step byte

theorem open_of_proper (object : IsObject text) (split : text = front ++ back) (more : back ≠ [])
    (rooted : Rooted (scan none start front)) : 0 < objects (scan none start front).stack := by
  rcases rooted with ⟨root, last, isObject⟩ | ⟨empty, place⟩
  · exact objects_pos last isObject
  · rcases place with ended | wrong
    · have whole := object.whole
      have shape : scan none start front = { position := .endValue, stack := [] } := by
        rw [← ended, ← empty]
      rw [split, scan_append, shape] at whole
      cases back with
      | nil => exact absurd rfl more
      | cons byte rest =>
          have trimmed := object.item.trimmed
          rw [split] at trimmed
          have last : ∀ other ∈ (byte :: rest).getLast?, isSpace other = false := by
            intro other member
            apply trimmed other
            rw [List.getLast?_append, Option.mem_def.mp member]
            rfl
          exact absurd (spaces_of_whole _ whole) (not_spaces last)
    · exact absurd wrong (fine_of_whole object split)

structure Partly (found : List Bytes) (front : Bytes) (s : Scan) : Prop where
  follows : Follows (scan none start front) s
  rooted : Rooted (scan none start front)
  text : s.text = some front
  found : s.found = found

theorem run_part (object : IsObject text) (front : Bytes) :
    ∀ back : Bytes, text = front ++ back → front ≠ [] → back ≠ [] →
      Partly found front (run { found := found } front) := by
  induction front using List.reverseRecOn with
  | nil =>
      intro back _split nonempty
      exact absurd rfl nonempty
  | append_singleton front byte ih =>
      intro back split _nonempty more
      rw [List.append_assoc, List.singleton_append] at split
      have fine : (scan none start (front ++ [byte])).position ≠ .error :=
        fine_of_whole object (by rw [split, List.append_assoc, List.singleton_append])
      by_cases empty : front = []
      · have brace : byte = 123 := by
          have opens := object.opens
          rw [split, empty] at opens
          exact Option.some.inj opens
        rw [empty, brace]
        refine ⟨⟨rfl, rfl, rfl⟩, .inl ⟨.objectKey, rfl, ?_⟩, rfl, rfl⟩
        intro impossible
        cases impossible
      · obtain ⟨follows, rooted, opened, kept⟩ :=
          ih (byte :: back) split empty (List.cons_ne_nil _ _)
        have isOpen := open_of_proper object split (List.cons_ne_nil _ _) rooted
        have deep : 0 < (run { found := found } front).depth := by
          rw [follows.depth]
          exact Int.natCast_pos.mpr isOpen
        rw [scan_append] at fine
        have goesOn := follows.step (standing_scan front) fine
        have stays := rooted.step (standing_scan front) byte
        have still : 0 < objects (JsonText.step none (scan none start front) byte).stack := by
          have split_ : text = (front ++ [byte]) ++ back := by
            rw [split, List.append_assoc, List.singleton_append]
          have later := open_of_proper object split_ more (by rw [scan_append]; exact stays)
          rw [scan_append] at later
          exact later
        have nonzero : (next (run { found := found } front) byte).depth ≠ 0 := by
          rw [goesOn.depth]
          omega
        obtain ⟨text_, found_⟩ := (next_text byte opened deep).1 nonzero
        rw [run_append]
        refine ⟨?_, ?_, text_, found_.trans kept⟩
        · rw [scan_append]
          exact goesOn
        · rw [scan_append]
          exact stays

theorem run_object (object : IsObject text) :
    run { found := found } text = { found := found ++ [text] } := by
  rcases List.eq_nil_or_concat text with none_ | ⟨front, byte, shape⟩
  · have opens := object.opens
    rw [none_] at opens
    cases opens
  · rw [List.concat_eq_append] at shape
    have nonempty : front ≠ [] := by
      intro empty
      have whole := object.whole
      have opens := object.opens
      rw [shape, empty] at opens whole
      have brace : byte = 123 := Option.some.inj opens
      rw [brace] at whole
      exact absurd whole (by decide)
    obtain ⟨follows, rooted, opened, kept⟩ :=
      @run_part text found object front [byte] shape nonempty (List.cons_ne_nil _ _)
    have isOpen := open_of_proper object shape (List.cons_ne_nil _ _) rooted
    have deep : 0 < (run { found := found } front).depth := by
      rw [follows.depth]
      exact Int.natCast_pos.mpr isOpen
    have fine := fine_of_whole object (List.append_nil text).symm
    rw [shape, scan_append] at fine
    have goesOn := follows.step (standing_scan front) fine
    have ended : AtEnd (JsonText.step none (scan none start front) byte) := by
      have atEnd := atEnd_of_whole (standing_scan text).spaceless object.whole
      rw [shape, scan_append] at atEnd
      exact atEnd
    have flat : (next (run { found := found } front) byte).depth = 0 := by
      rw [goesOn.depth, ended.1]
      rfl
    obtain ⟨text_, found_⟩ := (next_text byte opened deep).2 flat
    have outside : inside (JsonText.step none (scan none start front) byte).position = false := by
      rcases ended.2 with endValue | ⟨state, number, _⟩
      · rw [endValue]
        rfl
      · rw [number]
        rfl
    have result : run { found := found } text = next (run { found := found } front) byte := by
      rw [shape, run_append]
      rfl
    rw [result]
    have inString := goesOn.inString.trans outside
    have escape := goesOn.escape.trans (decide_eq_false (escape_of_outside outside))
    rw [kept, ← shape] at found_
    generalize next (run { found := found } front) byte = last at *
    obtain ⟨depth, lastText, lastString, lastEscape, lastFound⟩ := last
    cases flat
    cases text_
    cases inString
    cases escape
    cases found_
    rfl

end Objects

structure Member where
  gap : Bytes
  text : Bytes
  quiet : ∀ byte ∈ gap, Quiet byte
  object : IsObject text

def layout (members : List Member) : Bytes :=
  members.flatMap (fun member => member.gap ++ member.text)

def within : Nat → List Member → List Member
  | _, [] => []
  | room, member :: rest =>
      if (member.gap ++ member.text).length ≤ room then
        member :: within (room - (member.gap ++ member.text).length) rest
      else []

theorem run_quiet {found : List Bytes} {bytes : Bytes} (quiet : ∀ byte ∈ bytes, Quiet byte) :
    run { found := found } bytes = { found := found } := by
  induction bytes with
  | nil => rfl
  | cons byte rest ih =>
      obtain ⟨first, later⟩ := List.forall_mem_cons.mp quiet
      rw [run_cons, next_quiet rfl first]
      exact ih later

theorem run_within {tail : Bytes} (quiet : ∀ byte ∈ tail, Quiet byte) (members : List Member) :
    ∀ (room : Nat) (found : List Bytes),
      (run { found := found } ((layout members ++ tail).take room)).found =
        found ++ (within room members).map Member.text := by
  induction members with
  | nil =>
      intro room found
      have plain : layout [] ++ tail = tail := rfl
      rw [plain, run_quiet (fun byte member => quiet byte (List.mem_of_mem_take member))]
      exact (List.append_nil found).symm
  | cons member rest ih =>
      intro room found
      have whole : layout (member :: rest) ++ tail =
          (member.gap ++ member.text) ++ (layout rest ++ tail) := by
        unfold layout
        rw [List.flatMap_cons, List.append_assoc]
      rw [whole, within]
      by_cases fits : (member.gap ++ member.text).length ≤ room
      · rw [if_pos fits, List.take_append, List.take_of_length_le fits, run_append, run_append,
          run_quiet member.quiet, run_object member.object, ih, List.map_cons, List.append_assoc]
        rfl
      · rw [if_neg fits, List.take_append_of_le_length (le_of_lt (Nat.lt_of_not_le fits)),
          List.take_append, run_append]
        rw [List.length_append] at fits
        have before : run { found := found } (member.gap.take room) = { found := found } :=
          run_quiet (fun byte inside => member.quiet byte (List.mem_of_mem_take inside))
        rw [before, List.map_nil, List.append_nil]
        by_cases empty : member.text.take (room - member.gap.length) = []
        · rw [empty]
          rfl
        · have split := (List.take_append_drop (room - member.gap.length) member.text).symm
          have more : member.text.drop (room - member.gap.length) ≠ [] := by
            intro nothing
            have length : 0 = member.text.length - (room - member.gap.length) := by
              rw [← List.length_drop, nothing]
              rfl
            have positive : 0 < room - member.gap.length := by
              apply Nat.pos_of_ne_zero
              intro zero
              rw [zero] at empty
              exact empty rfl
            omega
          exact (run_part member.object _ _ split empty more).found

theorem within_all (members : List Member) :
    ∀ room, (layout members).length ≤ room → within room members = members := by
  induction members with
  | nil =>
      intro room _fits
      rfl
  | cons member rest ih =>
      intro room fits
      have whole : (layout (member :: rest)).length =
          (member.gap ++ member.text).length + (layout rest).length := by
        unfold layout
        rw [List.flatMap_cons, List.length_append]
      rw [within, if_pos (by omega), ih _ (by omega)]

def Separated : Bool → List Member → Prop
  | _, [] => True
  | true, member :: rest => Spaces member.gap ∧ Separated false rest
  | false, member :: rest =>
      (∃ before after, Spaces before ∧ Spaces after ∧ member.gap = before ++ 44 :: after) ∧
        Separated false rest

structure ObjectArray where
  lead : Bytes
  members : List Member
  gap : Bytes
  trail : Bytes
  leading : Spaces lead
  separated : Separated true members
  closing : Spaces gap
  trailing : Spaces trail

def ObjectArray.bytes (array : ObjectArray) : Bytes :=
  array.lead ++ 91 :: (layout array.members ++ (array.gap ++ 93 :: array.trail))

/-- The objects that are whole in the first `n` bytes of the array. -/
def ObjectArray.contained (array : ObjectArray) (n : Nat) : List Member :=
  within (n - (array.lead.length + 1)) array.members

theorem ObjectArray.run_take (array : ObjectArray) (n : Nat) :
    (run {} (array.bytes.take n)).found = (array.contained n).map Member.text := by
  have tail : ∀ byte ∈ array.gap ++ 93 :: array.trail, Quiet byte := by
    intro byte member
    rcases List.mem_append.mp member with inGap | behind
    · exact quiet_space (array.closing byte inGap)
    · rcases List.mem_cons.mp behind with bracket | inTrail
      · rw [bracket]
        exact ⟨by decide, by decide, by decide⟩
      · exact quiet_space (array.trailing byte inTrail)
  have front : ∀ byte ∈ array.lead ++ [91], Quiet byte := by
    intro byte member
    rcases List.mem_append.mp member with inLead | bracket
    · exact quiet_space (array.leading byte inLead)
    · rw [List.mem_singleton.mp bracket]
      exact ⟨by decide, by decide, by decide⟩
  have shape : array.bytes = (array.lead ++ [91]) ++
      (layout array.members ++ (array.gap ++ 93 :: array.trail)) := by
    unfold ObjectArray.bytes
    rw [List.append_assoc, List.singleton_append]
  rw [shape, List.take_append, run_append,
    run_quiet (fun byte member => front byte (List.mem_of_mem_take member)), run_within tail,
    List.length_append]
  rfl

/-! ### The arrays of the grammar -/

theorem scan_spaces {spaces : Bytes} (all : Spaces spaces) : scan none start spaces = start := by
  induction spaces with
  | nil => rfl
  | cons byte rest ih =>
      obtain ⟨space, later⟩ := List.forall_mem_cons.mp all
      have same : JsonText.step none start byte = start := by
        simp only [JsonText.step, start, beginValue, space, if_true]
      rw [scan_cons, same]
      exact ih later

theorem isItem_spaces_iff {spaces text : Bytes} (all : Spaces spaces) (nonempty : text ≠ []) :
    IsItem none (spaces ++ text) ↔ IsItem none text := by
  have accepted : accepts none (spaces ++ text) = accepts none text := by
    unfold accepts
    rw [scan_append, scan_spaces all]
  have last : (spaces ++ text).getLast? = text.getLast? := List.getLast?_append_of_ne_nil _ nonempty
  constructor
  · intro item
    exact ⟨accepted ▸ item.accepted, last ▸ item.trimmed⟩
  · intro item
    exact ⟨accepted.symm ▸ item.accepted, last.symm ▸ item.trimmed⟩

theorem IsObject.ne_nil {text : Bytes} (object : IsObject text) : text ≠ [] := by
  intro empty
  have opens := object.opens
  rw [empty] at opens
  cases opens

theorem IsObject.dropWhile_spaces {spaces text : Bytes} (object : IsObject text)
    (all : Spaces spaces) : (spaces ++ text).dropWhile isSpace = text := by
  apply dropWhile_append_of_head all
  intro byte head
  rw [object.opens] at head
  cases head
  rfl

theorem items_of_members (rest : Bytes) (members : List Member) :
    ∀ first, Separated first members →
      ∃ items, Items none first items (layout members ++ rest) rest ∧
        items.map (List.dropWhile isSpace) = members.map Member.text := by
  induction members with
  | nil =>
      intro first _separated
      exact ⟨[], .done, rfl⟩
  | cons member others ih =>
      intro first separated
      have whole : layout (member :: others) ++ rest =
          member.gap ++ (member.text ++ (layout others ++ rest)) := by
        unfold layout
        rw [List.flatMap_cons, List.append_assoc, List.append_assoc]
      rw [whole]
      cases first with
      | true =>
          obtain ⟨spaces, later⟩ := separated
          obtain ⟨items, written, texts⟩ := ih false later
          refine ⟨(member.gap ++ member.text) :: items, ?_, ?_⟩
          · rw [← List.append_assoc, ← List.nil_append ((member.gap ++ member.text) ++ _)]
            exact .more rfl
              ((isItem_spaces_iff spaces member.object.ne_nil).mpr member.object.item) written
          · rw [List.map_cons, List.map_cons, texts, member.object.dropWhile_spaces spaces]
      | false =>
          obtain ⟨⟨before, after, spacesBefore, spacesAfter, shape⟩, later⟩ := separated
          obtain ⟨items, written, texts⟩ := ih false later
          refine ⟨(after ++ member.text) :: items, ?_, ?_⟩
          · have split : member.gap ++ (member.text ++ (layout others ++ rest)) =
                (before ++ [44]) ++ ((after ++ member.text) ++ (layout others ++ rest)) := by
              rw [shape]
              simp only [List.append_assoc, List.cons_append, List.nil_append]
            rw [split]
            exact .more ⟨before, spacesBefore, rfl⟩
              ((isItem_spaces_iff spacesAfter member.object.ne_nil).mpr member.object.item) written
          · rw [List.map_cons, List.map_cons, texts, member.object.dropWhile_spaces spacesAfter]

theorem ObjectArray.isArray (array : ObjectArray) :
    ∃ items, IsArray none items array.bytes ∧
      items.map (List.dropWhile isSpace) = array.members.map Member.text := by
  obtain ⟨items, written, texts⟩ := items_of_members (array.gap ++ 93 :: array.trail) array.members
    true array.separated
  exact ⟨items, ⟨⟨array.lead, _, array.gap, array.trail, array.leading, rfl, written, array.closing,
    array.trailing⟩⟩, texts⟩

theorem ObjectArray.contained_of_isArray (array : ObjectArray) {n : Nat} {items : List Bytes}
    (isArray : IsArray none items (array.bytes.take n)) :
    array.contained n = array.members ∧
      items.map (List.dropWhile isSpace) = array.members.map Member.text := by
  obtain ⟨others, whole, texts⟩ := array.isArray
  have split : array.bytes.take n ++ array.bytes.drop n = array.bytes := List.take_append_drop n _
  rw [← split] at whole
  obtain ⟨same, spaces⟩ := isArray.of_prefix whole
  refine ⟨?_, by rw [same]; exact texts⟩
  apply within_all
  -- the bytes that are left out are white space, so the bracket is among the first
  by_contra short
  have shape : array.bytes = (array.lead ++ 91 :: (layout array.members ++ array.gap)) ++
      93 :: array.trail := by
    unfold ObjectArray.bytes
    simp only [List.append_assoc, List.cons_append]
  have behind : n ≤ (array.lead ++ 91 :: (layout array.members ++ array.gap)).length := by
    rw [List.length_append, List.length_cons, List.length_append]
    omega
  have outside : (93 : UInt8) ∈ array.bytes.drop n := by
    rw [shape, List.drop_append_of_le_length behind]
    exact List.mem_append_right _ List.mem_cons_self
  exact absurd (spaces 93 outside) (by decide)

end OuterBraces
