/-
JSON as bytes.

A scanner accepts the texts of the grammar; it knows where in a value it stands
and which arrays and objects are open, and may refuse to open too many. It does
not look at what the escapes of a string stand for: that is for a second one,
which finds the escape of the NUL character and surrogates without their other
half. A writer turns a document into text. What it writes is accepted, is whole in
UTF-8, and has no bad escape exactly when no string of the document has a NUL.
-/

import MigrationPlatform.Foundation.Utf8

namespace JsonText

open Utf8

def isSpace (byte : UInt8) : Bool := byte == 32 || byte == 9 || byte == 13 || byte == 10

theorem eq_of_isSpace {byte : UInt8} (space : isSpace byte = true) :
    byte = 32 ∨ byte = 9 ∨ byte = 13 ∨ byte = 10 := by
  unfold isSpace at space
  simpa only [Bool.or_eq_true, beq_iff_eq, or_assoc] using space

def isDigit (byte : UInt8) : Bool := decide (48 ≤ byte.toNat ∧ byte.toNat ≤ 57)

def hexValue? (byte : UInt8) : Option Nat :=
  let code := byte.toNat
  if 48 ≤ code ∧ code ≤ 57 then some (code - 48)
  else if 97 ≤ code ∧ code ≤ 102 then some (code - 87)
  else if 65 ≤ code ∧ code ≤ 70 then some (code - 55)
  else none

inductive NumberState
  | minus
  | zero
  | digits
  | point
  | fraction
  | exponent
  | exponentSign
  | exponentDigits
deriving DecidableEq, Repr

def NumberState.final : NumberState → Bool
  | .zero | .digits | .fraction | .exponentDigits => true
  | _ => false

def exponentMark (byte : UInt8) : Option NumberState :=
  if byte = 101 ∨ byte = 69 then some .exponent else none

def pointOrExponent (byte : UInt8) : Option NumberState :=
  if byte = 46 then some .point else exponentMark byte

def NumberState.next : NumberState → UInt8 → Option NumberState
  | .minus, byte =>
      if byte = 48 then some .zero else if isDigit byte then some .digits else none
  | .zero, byte => pointOrExponent byte
  | .digits, byte => if isDigit byte then some .digits else pointOrExponent byte
  | .point, byte => if isDigit byte then some .fraction else none
  | .fraction, byte => if isDigit byte then some .fraction else exponentMark byte
  | .exponent, byte =>
      if byte = 43 ∨ byte = 45 then some .exponentSign
      else if isDigit byte then some .exponentDigits
      else none
  | .exponentSign, byte => if isDigit byte then some .exponentDigits else none
  | .exponentDigits, byte => if isDigit byte then some .exponentDigits else none

def numberStart (byte : UInt8) : Option NumberState :=
  if byte = 45 then some .minus
  else if byte = 48 then some .zero
  else if isDigit byte then some .digits
  else none

/-- The arrays and objects that are open, with the part of an object that comes. -/
inductive Frame
  | objectKey
  | objectValue
  | arrayValue
deriving DecidableEq, Repr

inductive Position
  | beginValue
  | beginValueOrEmpty
  | beginKey
  | beginKeyOrEmpty
  | inString
  | escape
  | escapeUnit (left : Nat)
  | number (state : NumberState)
  | literal (rest : Bytes)
  | endValue
  | error
deriving DecidableEq, Repr

structure Scanner where
  position : Position
  stack : List Frame
deriving DecidableEq, Repr

def start : Scanner := { position := .beginValue, stack := [] }

def afterValue (stack : List Frame) (byte : UInt8) : Scanner :=
  if isSpace byte then { position := .endValue, stack := stack }
  else
    match stack with
    | [] => { position := .error, stack := [] }
    | .objectKey :: outer =>
        if byte = 58 then { position := .beginValue, stack := .objectValue :: outer }
        else { position := .error, stack := stack }
    | .objectValue :: outer =>
        if byte = 44 then { position := .beginKey, stack := .objectKey :: outer }
        else if byte = 125 then { position := .endValue, stack := outer }
        else { position := .error, stack := stack }
    | .arrayValue :: outer =>
        if byte = 44 then { position := .beginValue, stack := .arrayValue :: outer }
        else if byte = 93 then { position := .endValue, stack := outer }
        else { position := .error, stack := stack }

def mayOpen (limit : Option Nat) (stack : List Frame) : Bool :=
  match limit with
  | none => true
  | some deepest => decide (stack.length < deepest)

def opened (limit : Option Nat) (stack : List Frame) (frame : Frame) (position : Position) : Scanner :=
  if mayOpen limit stack then { position := position, stack := frame :: stack }
  else { position := .error, stack := stack }

def beginValue (limit : Option Nat) (stack : List Frame) (byte : UInt8) : Scanner :=
  if isSpace byte then { position := .beginValue, stack := stack }
  else if byte = 123 then opened limit stack .objectKey .beginKeyOrEmpty
  else if byte = 91 then opened limit stack .arrayValue .beginValueOrEmpty
  else if byte = 34 then { position := .inString, stack := stack }
  -- The rest of `true`, `false` and `null`.
  else if byte = 116 then { position := .literal [114, 117, 101], stack := stack }
  else if byte = 102 then { position := .literal [97, 108, 115, 101], stack := stack }
  else if byte = 110 then { position := .literal [117, 108, 108], stack := stack }
  else
    match numberStart byte with
    | some state => { position := .number state, stack := stack }
    | none => { position := .error, stack := stack }

def beginKey (stack : List Frame) (byte : UInt8) : Scanner :=
  if isSpace byte then { position := .beginKey, stack := stack }
  else if byte = 34 then { position := .inString, stack := stack }
  else { position := .error, stack := stack }

def isEscapeMark (byte : UInt8) : Bool := [98, 102, 110, 114, 116, 92, 47, 34].contains byte

def step (limit : Option Nat) (scanner : Scanner) (byte : UInt8) : Scanner :=
  let stack := scanner.stack
  match scanner.position with
  | .beginValue => beginValue limit stack byte
  | .beginValueOrEmpty =>
      if isSpace byte then scanner
      else if byte = 93 then afterValue stack byte
      else beginValue limit stack byte
  | .beginKey => beginKey stack byte
  | .beginKeyOrEmpty =>
      if isSpace byte then scanner
      else if byte = 125 then { position := .endValue, stack := stack.tail }
      else beginKey stack byte
  | .inString =>
      if byte = 34 then { scanner with position := .endValue }
      else if byte = 92 then { scanner with position := .escape }
      else if byte.toNat < 32 then { scanner with position := .error }
      else scanner
  | .escape =>
      if isEscapeMark byte then { scanner with position := .inString }
      else if byte = 117 then { scanner with position := .escapeUnit 3 }
      else { scanner with position := .error }
  | .escapeUnit left =>
      if (hexValue? byte).isSome then
        match left with
        | 0 => { scanner with position := .inString }
        | fewer + 1 => { scanner with position := .escapeUnit fewer }
      else { scanner with position := .error }
  | .number state =>
      match state.next byte with
      | some later => { scanner with position := .number later }
      | none =>
          if state.final then afterValue stack byte else { scanner with position := .error }
  | .literal rest =>
      match rest with
      | [] => { scanner with position := .error }
      | first :: others =>
          if byte = first then
            { scanner with position := if others = [] then .endValue else .literal others }
          else { scanner with position := .error }
  | .endValue => afterValue stack byte
  | .error => scanner

def scan (limit : Option Nat) (scanner : Scanner) (bytes : Bytes) : Scanner :=
  bytes.foldl (step limit) scanner

/-- The end of the text is read as a space. -/
def accepts (limit : Option Nat) (bytes : Bytes) : Bool :=
  decide (step limit (scan limit start bytes) 32 = { position := .endValue, stack := [] })

theorem scan_append (limit : Option Nat) (scanner : Scanner) (first second : Bytes) :
    scan limit scanner (first ++ second) = scan limit (scan limit scanner first) second :=
  List.foldl_append

theorem scan_cons (limit : Option Nat) (scanner : Scanner) (byte : UInt8) (rest : Bytes) :
    scan limit scanner (byte :: rest) = scan limit (step limit scanner byte) rest := rfl

/-- `pending` follows a high surrogate, whose other half must come next. -/
inductive EscapeState
  | text
  | pending
  | slash (high : Bool)
  | unit (high : Bool) (left value : Nat)
  | bad
deriving DecidableEq, Repr

def isHighSurrogate (unit : Nat) : Bool := decide (0xD800 ≤ unit ∧ unit ≤ 0xDBFF)

def isLowSurrogate (unit : Nat) : Bool := decide (0xDC00 ≤ unit ∧ unit ≤ 0xDFFF)

def unitEnd (high : Bool) (unit : Nat) : EscapeState :=
  if high then (if isLowSurrogate unit then .text else .bad)
  else if unit = 0 then .bad
  else if isHighSurrogate unit then .pending
  else if isLowSurrogate unit then .bad
  else .text

def escapeStep : EscapeState → UInt8 → EscapeState
  | .text, byte => if byte = 92 then .slash false else .text
  | .pending, byte => if byte = 92 then .slash true else .bad
  | .slash high, byte =>
      if byte = 117 then .unit high 3 0 else if high then .bad else .text
  | .unit high left value, byte =>
      match hexValue? byte with
      | none => .bad
      | some digit =>
          match left with
          | 0 => unitEnd high (value * 16 + digit)
          | fewer + 1 => .unit high fewer (value * 16 + digit)
  | .bad, _ => .bad

def escapes (state : EscapeState) (bytes : Bytes) : EscapeState := bytes.foldl escapeStep state

/-- No escape of the NUL character and no surrogate without its other half. -/
def escapesFine (bytes : Bytes) : Bool := decide (escapes .text bytes = .text)

theorem escapes_append (state : EscapeState) (first second : Bytes) :
    escapes state (first ++ second) = escapes (escapes state first) second :=
  List.foldl_append

theorem escapes_bad (bytes : Bytes) : escapes .bad bytes = .bad := by
  induction bytes with
  | nil => rfl
  | cons byte rest ih => exact ih

theorem escapes_of_plain {bytes : Bytes} (plain : ∀ byte ∈ bytes, byte ≠ 92) :
    escapes .text bytes = .text := by
  induction bytes with
  | nil => rfl
  | cons byte rest ih =>
      have here : escapeStep .text byte = .text := if_neg (plain byte List.mem_cons_self)
      rw [escapes, List.foldl_cons, here]
      exact ih (fun other member => plain other (List.mem_cons_of_mem _ member))

/-! ### The writer -/

inductive Doc
  | null
  | bool (value : Bool)
  | number (text : Bytes)
  | text (bytes : Bytes)
  | list (items : List Doc)
  | object (fields : List (Bytes × Doc))

def hexDigit (digit : Nat) : UInt8 :=
  if digit < 10 then UInt8.ofNat (48 + digit) else UInt8.ofNat (87 + digit)

def unitEscape (unit : Nat) : Bytes :=
  [92, 117, hexDigit (unit / 4096), hexDigit (unit / 256 % 16), hexDigit (unit / 16 % 16),
    hexDigit (unit % 16)]

def shortEscape? (code : Nat) : Option UInt8 :=
  if code = 34 then some 34
  else if code = 92 then some 92
  else if code = 8 then some 98
  else if code = 12 then some 102
  else if code = 10 then some 110
  else if code = 13 then some 114
  else if code = 9 then some 116
  else none

/-- Besides what the grammar asks for, the characters that matter to HTML and to
scripts are escaped; a byte that is no character becomes the replacement one. -/
def quoteRune : Rune → Bytes
  | .invalid _ => unitEscape 0xFFFD
  | .scalar char =>
      match shortEscape? char.toNat with
      | some letter => [92, letter]
      | none =>
          if char.toNat < 32 ∨ char.toNat = 60 ∨ char.toNat = 62 ∨ char.toNat = 38 ∨
              char.toNat = 0x2028 ∨ char.toNat = 0x2029 then unitEscape char.toNat
          else String.utf8EncodeChar char

def quoted (bytes : Bytes) : Bytes := 34 :: ((runes bytes).flatMap quoteRune ++ [34])

def nullText : Bytes := [110, 117, 108, 108]

mutual

def Doc.marshal : Doc → Bytes
  | .null => nullText
  | .bool true => [116, 114, 117, 101]
  | .bool false => [102, 97, 108, 115, 101]
  | .number text => text
  | .text bytes => quoted bytes
  | .list [] => [91, 93]
  | .list (item :: rest) => 91 :: (item.marshal ++ (marshalItems rest ++ [93]))
  | .object [] => [123, 125]
  | .object ((key, value) :: rest) =>
      123 :: (quoted key ++ 58 :: (value.marshal ++ (marshalFields rest ++ [125])))

def marshalItems : List Doc → Bytes
  | [] => []
  | item :: rest => 44 :: (item.marshal ++ marshalItems rest)

def marshalFields : List (Bytes × Doc) → Bytes
  | [] => []
  | (key, value) :: rest => 44 :: (quoted key ++ 58 :: (value.marshal ++ marshalFields rest))

end

def numberEnd (text : Bytes) : Option NumberState :=
  match text with
  | [] => none
  | first :: rest => (numberStart first).bind (fun state => rest.foldlM NumberState.next state)

def isNumber (text : Bytes) : Bool := (numberEnd text).any NumberState.final

mutual

def Doc.numbered : Doc → Bool
  | .null | .bool _ | .text _ => true
  | .number text => isNumber text
  | .list items => numberedItems items
  | .object fields => numberedFields fields

def numberedItems : List Doc → Bool
  | [] => true
  | item :: rest => item.numbered && numberedItems rest

def numberedFields : List (Bytes × Doc) → Bool
  | [] => true
  | (_, value) :: rest => value.numbered && numberedFields rest

end

mutual

def Doc.nulFree : Doc → Bool
  | .null | .bool _ | .number _ => true
  | .text bytes => !bytes.contains 0
  | .list items => nulFreeItems items
  | .object fields => nulFreeFields fields

def nulFreeItems : List Doc → Bool
  | [] => true
  | item :: rest => item.nulFree && nulFreeItems rest

def nulFreeFields : List (Bytes × Doc) → Bool
  | [] => true
  | (key, value) :: rest => !key.contains 0 && value.nulFree && nulFreeFields rest

end

theorem hexValue_hexDigit {digit : Nat} (small : digit < 16) :
    hexValue? (hexDigit digit) = some digit := by
  have all : ∀ digit : Fin 16, hexValue? (hexDigit digit.val) = some digit.val := by decide
  exact all ⟨digit, small⟩

theorem hexDigit_small {digit : Nat} (small : digit < 16) : (hexDigit digit).toNat < 128 := by
  have all : ∀ digit : Fin 16, (hexDigit digit.val).toNat < 128 := by decide
  exact all ⟨digit, small⟩

variable (limit : Option Nat) (stack : List Frame)

theorem scan_unitEscape (unit : Nat) (small : unit < 65536) :
    scan limit { position := .inString, stack := stack } (unitEscape unit) =
      { position := .inString, stack := stack } := by
  have digit : ∀ left value, value < 16 →
      step limit { position := .escapeUnit left, stack := stack } (hexDigit value) =
        { position := match left with | 0 => .inString | fewer + 1 => .escapeUnit fewer
          stack := stack } := by
    intro left value below
    simp only [step, hexValue_hexDigit below, Option.isSome_some, if_true]
    cases left <;> rfl
  have slash : step limit { position := .inString, stack := stack } 92 =
      { position := .escape, stack := stack } := rfl
  have mark : step limit { position := .escape, stack := stack } 117 =
      { position := .escapeUnit 3, stack := stack } := rfl
  rw [unitEscape, scan_cons, slash, scan_cons, mark, scan_cons, digit 3 _ (by omega), scan_cons,
    digit 2 _ (by omega), scan_cons, digit 1 _ (by omega), scan_cons, digit 0 _ (by omega)]
  rfl

theorem shortEscape_mark {code : Nat} {letter : UInt8} (short : shortEscape? code = some letter) :
    isEscapeMark letter = true ∧ letter ≠ 117 ∧ letter.toNat < 128 ∧ code ≠ 0 := by
  unfold shortEscape? at short
  split at short
  · cases short; subst_vars; decide
  · split at short
    · cases short; subst_vars; decide
    · split at short
      · cases short; subst_vars; decide
      · split at short
        · cases short; subst_vars; decide
        · split at short
          · cases short; subst_vars; decide
          · split at short
            · cases short; subst_vars; decide
            · split at short
              · cases short; subst_vars; decide
              · cases short

theorem quoteRune_cases (rune : Rune) :
    (∃ letter, quoteRune rune = [92, letter] ∧ isEscapeMark letter = true ∧ letter ≠ 117 ∧
        letter.toNat < 128 ∧ rune ≠ .scalar (Char.ofNat 0)) ∨
      (∃ unit, quoteRune rune = unitEscape unit ∧ unit < 65536 ∧
        isHighSurrogate unit = false ∧ isLowSurrogate unit = false ∧
        (unit = 0 ↔ rune = .scalar (Char.ofNat 0))) ∨
      ∃ char, quoteRune rune = String.utf8EncodeChar char ∧ 32 ≤ char.toNat ∧ char.toNat ≠ 34 ∧
        char.toNat ≠ 92 ∧ rune ≠ .scalar (Char.ofNat 0) := by
  cases rune with
  | invalid byte => exact Or.inr (Or.inl ⟨0xFFFD, rfl, by decide, by decide, by decide, by simp⟩)
  | scalar char =>
      have zero : char.toNat = 0 ↔ Rune.scalar char = .scalar (Char.ofNat 0) := by
        constructor
        · intro same
          rw [← Char.ofNat_toNat char, same]
        · intro same
          cases same
          rfl
      cases short : shortEscape? char.toNat with
      | some letter =>
          obtain ⟨mark, other, small, nonzero⟩ := shortEscape_mark short
          refine Or.inl ⟨letter, by simp [quoteRune, short], mark, other, small, ?_⟩
          exact fun same => nonzero (zero.mpr same)
      | none =>
          by_cases unit : char.toNat < 32 ∨ char.toNat = 60 ∨ char.toNat = 62 ∨ char.toNat = 38 ∨
              char.toNat = 0x2028 ∨ char.toNat = 0x2029
          · refine Or.inr (Or.inl ⟨char.toNat, by simp only [quoteRune, short, if_pos unit], ?_, ?_,
              ?_, zero⟩)
            · omega
            · simp only [isHighSurrogate, decide_eq_false_iff_not]
              omega
            · simp only [isLowSurrogate, decide_eq_false_iff_not]
              omega
          · refine Or.inr (Or.inr ⟨char, by simp only [quoteRune, short, if_neg unit], ?_, ?_, ?_, ?_⟩)
            · omega
            · rintro same
              simp [same, shortEscape?] at short
            · rintro same
              simp [same, shortEscape?] at short
            · intro same
              have := zero.mpr same
              omega

theorem encodeChar_ne {char : Char} {byte code : UInt8} (small : code.toNat < 128)
    (other : char.toNat ≠ code.toNat) (member : byte ∈ String.utf8EncodeChar char) :
    byte ≠ code := by
  rintro rfl
  exact other ((mem_encode_iff small).mp member)

theorem encodeChar_printable {char : Char} (printable : 32 ≤ char.toNat) {byte : UInt8}
    (member : byte ∈ String.utf8EncodeChar char) : 32 ≤ byte.toNat := by
  by_contra low
  have small : byte.toNat < 128 := by omega
  have same := (mem_encode_iff small).mp member
  omega

theorem scan_plain (bytes : Bytes)
    (plain : ∀ byte ∈ bytes, byte ≠ 34 ∧ byte ≠ 92 ∧ 32 ≤ byte.toNat) :
    scan limit { position := .inString, stack := stack } bytes =
      { position := .inString, stack := stack } := by
  induction bytes with
  | nil => rfl
  | cons byte rest ih =>
      obtain ⟨quote, slash, printable⟩ := plain byte List.mem_cons_self
      have stays : step limit { position := .inString, stack := stack } byte =
          { position := .inString, stack := stack } := by
        simp only [step, if_neg quote, if_neg slash, if_neg (Nat.not_lt.mpr printable)]
      rw [scan_cons, stays]
      exact ih (fun other member => plain other (List.mem_cons_of_mem _ member))

theorem scan_quoteRune (rune : Rune) :
    scan limit { position := .inString, stack := stack } (quoteRune rune) =
      { position := .inString, stack := stack } := by
  obtain ⟨letter, same, mark, _⟩ | ⟨unit, same, small, _⟩ | ⟨char, same, printable, quote, slash, _⟩ :=
    quoteRune_cases rune
  · have escaped : step limit { position := .escape, stack := stack } letter =
        { position := .inString, stack := stack } := by
      simp only [step, if_pos mark]
    rw [same]
    exact escaped
  · rw [same]
    exact scan_unitEscape limit stack unit small
  · rw [same]
    apply scan_plain
    intro byte member
    exact ⟨encodeChar_ne (by decide) quote member, encodeChar_ne (by decide) slash member,
      encodeChar_printable printable member⟩

theorem scan_quoteRunes (text : List Rune) :
    scan limit { position := .inString, stack := stack } (text.flatMap quoteRune) =
      { position := .inString, stack := stack } := by
  induction text with
  | nil => rfl
  | cons rune rest ih => rw [List.flatMap_cons, scan_append, scan_quoteRune, ih]

theorem scan_quoted (bytes : Bytes) {position : Position}
    (begins : position = .beginValue ∨ position = .beginKey ∨ position = .beginKeyOrEmpty) :
    scan limit { position := position, stack := stack } (quoted bytes) =
      { position := .endValue, stack := stack } := by
  have first : step limit { position := position, stack := stack } 34 =
      { position := .inString, stack := stack } := by
    obtain rfl | rfl | rfl := begins <;> rfl
  rw [quoted, scan_cons, first, scan_append, scan_quoteRunes]
  rfl

/-! ### What its escapes stand for -/

theorem escapes_unitEscape {unit : Nat} (small : unit < 65536)
    (high : isHighSurrogate unit = false) (low : isLowSurrogate unit = false) :
    escapes .text (unitEscape unit) = if unit = 0 then .bad else .text := by
  have digit : ∀ left value digit, digit < 16 →
      escapeStep (.unit false left value) (hexDigit digit) =
        match left with
        | 0 => unitEnd false (value * 16 + digit)
        | fewer + 1 => .unit false fewer (value * 16 + digit) := by
    intro left value digit below
    simp only [escapeStep, hexValue_hexDigit below]
  have whole : (((0 * 16 + unit / 4096) * 16 + unit / 256 % 16) * 16 + unit / 16 % 16) * 16 +
      unit % 16 = unit := by omega
  have opens : escapes .text (unitEscape unit) =
      escapes (.unit false 3 0) [hexDigit (unit / 4096), hexDigit (unit / 256 % 16),
        hexDigit (unit / 16 % 16), hexDigit (unit % 16)] := rfl
  rw [opens]
  simp only [escapes, List.foldl_cons, List.foldl_nil]
  rw [digit 3 _ _ (by omega), digit 2 _ _ (by omega), digit 1 _ _ (by omega),
    digit 0 _ _ (by omega), whole]
  simp [unitEnd, high, low]

theorem escapes_quoteRune (rune : Rune) :
    escapes .text (quoteRune rune) = if rune = .scalar (Char.ofNat 0) then .bad else .text := by
  obtain ⟨letter, same, _, other, _, nonzero⟩ | ⟨unit, same, small, high, low, zero⟩ |
    ⟨char, same, _, _, slash, nonzero⟩ := quoteRune_cases rune
  · have escaped : escapeStep (.slash false) letter = .text := by simp [escapeStep, other]
    rw [same, if_neg nonzero]
    exact escaped
  · rw [same, escapes_unitEscape small high low]
    simp only [zero]
  · rw [same, if_neg nonzero]
    exact escapes_of_plain (fun byte member => encodeChar_ne (by decide) slash member)

theorem escapes_quoteRunes (text : List Rune) :
    escapes .text (text.flatMap quoteRune) =
      if Rune.scalar (Char.ofNat 0) ∈ text then .bad else .text := by
  induction text with
  | nil => rfl
  | cons rune rest ih =>
      rw [List.flatMap_cons, escapes_append, escapes_quoteRune]
      by_cases here : rune = .scalar (Char.ofNat 0)
      · rw [if_pos here, escapes_bad, if_pos (by rw [here]; exact List.mem_cons_self)]
      · rw [if_neg here, ih]
        simp [Ne.symm here]

theorem escapes_quoted (bytes : Bytes) :
    escapes .text (quoted bytes) = if bytes.contains 0 then .bad else .text := by
  have opens : escapes .text (quoted bytes) =
      escapes (escapes .text ((runes bytes).flatMap quoteRune)) [34] := escapes_append _ _ _
  rw [opens, escapes_quoteRunes]
  simp only [← zero_mem_iff, List.contains_iff_mem]
  split <;> rfl

theorem valid_quoteRune (rune : Rune) : valid (quoteRune rune) = true := by
  obtain ⟨letter, same, _, _, small, _⟩ | ⟨unit, same, below, _⟩ | ⟨char, same, _⟩ :=
    quoteRune_cases rune
  · rw [same]
    apply valid_of_small
    simpa using small
  · rw [same]
    apply valid_of_small
    have digits : ∀ digit < 16, (hexDigit digit).toNat < 128 := fun _ => hexDigit_small
    simp only [unitEscape, List.mem_cons, List.not_mem_nil, or_false, forall_eq_or_imp, forall_eq]
    exact ⟨by decide, by decide, digits _ (by omega), digits _ (by omega), digits _ (by omega),
      digits _ (by omega)⟩
  · rw [same, valid_iff]
    exact ⟨[char], by simp [encode]⟩

theorem valid_of_ascii (bytes : Bytes)
    (ascii : bytes.all (fun byte => decide (byte.toNat < 128)) = true) : valid bytes = true := by
  apply valid_of_small
  intro byte member
  exact of_decide_eq_true (List.all_eq_true.mp ascii byte member)

theorem valid_quoted (bytes : Bytes) : valid (quoted bytes) = true := by
  have inside : ∀ text : List Rune, valid (text.flatMap quoteRune) = true := by
    intro text
    induction text with
    | nil => rfl
    | cons rune rest ih =>
        rw [List.flatMap_cons]
        exact valid_append (valid_quoteRune rune) ih
  exact valid_append (valid_of_ascii [34] rfl)
    (valid_append (inside _) (valid_of_ascii [34] rfl))

def isNumberByte (byte : UInt8) : Bool := isDigit byte || [43, 45, 46, 69, 101].contains byte

theorem numberStart_byte {byte : UInt8} {state : NumberState}
    (starts : numberStart byte = some state) : isNumberByte byte = true := by
  unfold numberStart at starts
  split at starts
  · rename_i same
    rw [same]
    decide
  · split at starts
    · rename_i same
      rw [same]
      decide
    · split at starts
      · rename_i digit
        rw [isNumberByte, digit, Bool.true_or]
      · cases starts

theorem next_byte {state later : NumberState} {byte : UInt8}
    (next : state.next byte = some later) : isNumberByte byte = true := by
  by_contra other
  simp only [isNumberByte, Bool.or_eq_true, List.contains_iff_mem, List.mem_cons, List.not_mem_nil,
    or_false, not_or, Bool.not_eq_true] at other
  obtain ⟨digit, plus, minus, point, capital, small⟩ := other
  have notZero : byte ≠ 48 := by
    rintro rfl
    exact absurd digit (by decide)
  cases state <;>
    simp [NumberState.next, pointOrExponent, exponentMark, digit, plus, minus, point, capital, small,
      notZero] at next

theorem numberByte_plain {byte : UInt8} (number : isNumberByte byte = true) :
    byte.toNat < 128 ∧ isSpace byte = false ∧ byte ∉ [92, 93, 123, 91, 34, 116, 102, 110] := by
  have ne : ∀ code, isNumberByte code = false → byte ≠ code := by
    rintro code other rfl
    rw [number] at other
    cases other
  refine ⟨?_, ?_, ?_⟩
  · rw [isNumberByte, Bool.or_eq_true] at number
    obtain digit | mark := number
    · have range := of_decide_eq_true digit
      omega
    · simp only [List.contains_iff_mem, List.mem_cons, List.not_mem_nil, or_false] at mark
      obtain rfl | rfl | rfl | rfl | rfl := mark <;> decide
  · simp [isSpace, ne 32 (by decide), ne 9 (by decide), ne 13 (by decide), ne 10 (by decide)]
  · simp [ne 92 (by decide), ne 93 (by decide), ne 123 (by decide), ne 91 (by decide),
      ne 34 (by decide), ne 116 (by decide), ne 102 (by decide), ne 110 (by decide)]

theorem numberEnd_bytes {text : Bytes} {state : NumberState} (ends : numberEnd text = some state) :
    ∀ byte ∈ text, isNumberByte byte = true := by
  have later : ∀ (rest : Bytes) (first last : NumberState),
      rest.foldlM NumberState.next first = some last → ∀ byte ∈ rest, isNumberByte byte = true := by
    intro rest
    induction rest with
    | nil => intro first last _ byte member; cases member
    | cons byte rest ih =>
        intro first last run
        rw [List.foldlM_cons] at run
        obtain ⟨middle, next, run⟩ := Option.bind_eq_some_iff.mp run
        exact List.forall_mem_cons.mpr ⟨next_byte next, ih middle last run⟩
  cases text with
  | nil => cases ends
  | cons first rest =>
      obtain ⟨begun, starts, run⟩ := Option.bind_eq_some_iff.mp ends
      exact List.forall_mem_cons.mpr ⟨numberStart_byte starts, later rest begun state run⟩

theorem beginValue_number {byte : UInt8} {state : NumberState}
    (starts : numberStart byte = some state) :
    beginValue limit stack byte = { position := .number state, stack := stack } := by
  obtain ⟨_, space, others⟩ := numberByte_plain (numberStart_byte starts)
  simp only [List.mem_cons, List.not_mem_nil, or_false, not_or] at others
  obtain ⟨_, _, brace, bracket, quote, t, f, n⟩ := others
  rw [beginValue, space, if_neg Bool.false_ne_true, if_neg brace, if_neg bracket, if_neg quote,
    if_neg t, if_neg f, if_neg n, starts]

theorem scan_number {text : Bytes} {state : NumberState} (ends : numberEnd text = some state) :
    scan limit { position := .beginValue, stack := stack } text =
      { position := .number state, stack := stack } := by
  have later : ∀ (rest : Bytes) (first last : NumberState),
      rest.foldlM NumberState.next first = some last →
      scan limit { position := .number first, stack := stack } rest =
        { position := .number last, stack := stack } := by
    intro rest
    induction rest with
    | nil =>
        intro first last run
        cases run
        rfl
    | cons byte rest ih =>
        intro first last run
        rw [List.foldlM_cons] at run
        obtain ⟨middle, next, run⟩ := Option.bind_eq_some_iff.mp run
        have moves : step limit { position := .number first, stack := stack } byte =
            { position := .number middle, stack := stack } := by
          simp only [step, next]
        rw [scan_cons, moves]
        exact ih middle last run
  cases text with
  | nil => cases ends
  | cons first rest =>
      obtain ⟨begun, starts, run⟩ := Option.bind_eq_some_iff.mp ends
      have moves : step limit { position := .beginValue, stack := stack } first =
          { position := .number begun, stack := stack } := beginValue_number limit stack starts
      rw [scan_cons, moves]
      exact later rest begun state run

def follows : List UInt8 := [32, 44, 58, 93, 125]

def Settled (scanner : Scanner) : Prop :=
  ∀ byte ∈ follows, step limit scanner byte = afterValue stack byte

theorem settled_endValue : Settled limit stack { position := .endValue, stack := stack } :=
  fun _ _ => rfl

theorem settled_number {state : NumberState} (final : state.final = true) :
    Settled limit stack { position := .number state, stack := stack } := by
  have stops : follows.all (fun byte => (state.next byte).isNone) = true := by
    cases state <;> rfl
  intro byte member
  have ends := Option.isNone_iff_eq_none.mp (List.all_eq_true.mp stops byte member)
  simp only [step, ends, final, if_true]

theorem marshal_begins (doc : Doc) (numbered : doc.numbered = true) :
    ∃ byte rest, doc.marshal = byte :: rest ∧ isSpace byte = false ∧ byte ≠ 93 := by
  cases doc with
  | null => exact ⟨110, _, by rw [Doc.marshal, nullText], by decide, by decide⟩
  | bool value =>
      cases value with
      | false => exact ⟨102, _, by rw [Doc.marshal], by decide, by decide⟩
      | true => exact ⟨116, _, by rw [Doc.marshal], by decide, by decide⟩
  | text bytes => exact ⟨34, _, by rw [Doc.marshal, quoted], by decide, by decide⟩
  | list items => cases items <;> exact ⟨91, _, by rw [Doc.marshal], by decide, by decide⟩
  | object fields =>
      cases fields with
      | nil => exact ⟨123, _, by rw [Doc.marshal], by decide, by decide⟩
      | cons field rest => exact ⟨123, _, by rw [Doc.marshal], by decide, by decide⟩
  | number text =>
      rw [Doc.numbered, isNumber, Option.any_eq_true] at numbered
      obtain ⟨state, ends, _⟩ := numbered
      cases text with
      | nil => cases ends
      | cons first rest =>
          obtain ⟨_, space, others⟩ :=
            numberByte_plain (numberEnd_bytes ends first List.mem_cons_self)
          refine ⟨first, rest, by rw [Doc.marshal], space, ?_⟩
          rintro rfl
          exact others (by decide)

theorem scan_first_item {doc : Doc} (numbered : doc.numbered = true) (rest : Bytes) :
    scan limit { position := .beginValueOrEmpty, stack := stack } (doc.marshal ++ rest) =
      scan limit { position := .beginValue, stack := stack } (doc.marshal ++ rest) := by
  obtain ⟨byte, others, begins, space, close⟩ := marshal_begins doc numbered
  rw [begins, List.cons_append, scan_cons, scan_cons]
  congr 1
  simp only [step, space, Bool.false_eq_true, if_false, if_neg close]

theorem scan_literal {first : UInt8} {rest : Bytes} (nonempty : rest ≠ [])
    (begins : beginValue limit stack first = { position := .literal rest, stack := stack }) :
    scan limit { position := .beginValue, stack := stack } (first :: rest) =
      { position := .endValue, stack := stack } := by
  have reads : ∀ rest : Bytes, rest ≠ [] →
      scan limit { position := .literal rest, stack := stack } rest =
        { position := .endValue, stack := stack } := by
    intro rest
    induction rest with
    | nil => intro impossible; exact absurd rfl impossible
    | cons byte rest ih =>
        intro _
        rw [scan_cons]
        cases rest with
        | nil => simp only [step, if_true]; rfl
        | cons next rest =>
            have moves : step limit { position := .literal (byte :: next :: rest), stack := stack } byte =
                { position := .literal (next :: rest), stack := stack } := by
              simp only [step, if_true]
              rfl
            rw [moves]
            exact ih (List.cons_ne_nil next rest)
  have moves : step limit { position := .beginValue, stack := stack } first =
      { position := .literal rest, stack := stack } := begins
  rw [scan_cons, moves]
  exact reads rest nonempty

mutual

theorem scan_marshal : ∀ (doc : Doc) (stack : List Frame), doc.numbered = true →
    Settled none stack (scan none { position := .beginValue, stack := stack } doc.marshal)
  | .null, stack, _ => by
      have read : scan none { position := .beginValue, stack := stack } (Doc.null).marshal =
          { position := .endValue, stack := stack } := by
        rw [Doc.marshal]
        exact scan_literal none stack (List.cons_ne_nil _ _) rfl
      rw [read]
      exact settled_endValue none stack
  | .bool true, stack, _ => by
      have read : scan none { position := .beginValue, stack := stack } (Doc.bool true).marshal =
          { position := .endValue, stack := stack } := by
        rw [Doc.marshal]
        exact scan_literal none stack (List.cons_ne_nil _ _) rfl
      rw [read]
      exact settled_endValue none stack
  | .bool false, stack, _ => by
      have read : scan none { position := .beginValue, stack := stack } (Doc.bool false).marshal =
          { position := .endValue, stack := stack } := by
        rw [Doc.marshal]
        exact scan_literal none stack (List.cons_ne_nil _ _) rfl
      rw [read]
      exact settled_endValue none stack
  | .number text, stack, numbered => by
      rw [Doc.numbered, isNumber, Option.any_eq_true] at numbered
      obtain ⟨state, ends, final⟩ := numbered
      rw [Doc.marshal, scan_number none stack ends]
      exact settled_number none stack final
  | .text bytes, stack, _ => by
      rw [Doc.marshal, scan_quoted none stack bytes (Or.inl rfl)]
      exact settled_endValue none stack
  | .list [], stack, _ => by
      rw [Doc.marshal]
      exact settled_endValue none stack
  | .list (item :: rest), stack, numbered => by
      rw [Doc.numbered, numberedItems, Bool.and_eq_true] at numbered
      have opens : step none { position := .beginValue, stack := stack } 91 =
          { position := .beginValueOrEmpty, stack := .arrayValue :: stack } := rfl
      rw [Doc.marshal, scan_cons, opens, scan_first_item none _ numbered.1, scan_append,
        scan_items rest stack numbered.2 _ (scan_marshal item (.arrayValue :: stack) numbered.1)]
      exact settled_endValue none stack
  | .object [], stack, _ => by
      rw [Doc.marshal]
      exact settled_endValue none stack
  | .object ((key, value) :: rest), stack, numbered => by
      rw [Doc.numbered, numberedFields, Bool.and_eq_true] at numbered
      have opens : step none { position := .beginValue, stack := stack } 123 =
          { position := .beginKeyOrEmpty, stack := .objectKey :: stack } := rfl
      have colon : step none { position := .endValue, stack := .objectKey :: stack } 58 =
          { position := .beginValue, stack := .objectValue :: stack } := rfl
      rw [Doc.marshal, scan_cons, opens, scan_append, scan_quoted none _ key (Or.inr (Or.inr rfl)),
        scan_cons, colon, scan_append,
        scan_fields rest stack numbered.2 _ (scan_marshal value (.objectValue :: stack) numbered.1)]
      exact settled_endValue none stack

theorem scan_items : ∀ (items : List Doc) (stack : List Frame), numberedItems items = true →
    ∀ scanner, Settled none (.arrayValue :: stack) scanner →
      scan none scanner (marshalItems items ++ [93]) = { position := .endValue, stack := stack }
  | [], stack, _, scanner, settled => by
      rw [marshalItems, List.nil_append, scan_cons, settled 93 (by decide)]
      rfl
  | item :: rest, stack, numbered, scanner, settled => by
      rw [numberedItems, Bool.and_eq_true] at numbered
      have comma : afterValue (.arrayValue :: stack) 44 =
          { position := .beginValue, stack := .arrayValue :: stack } := rfl
      rw [marshalItems, List.cons_append, scan_cons, settled 44 (by decide), comma,
        List.append_assoc, scan_append]
      exact scan_items rest stack numbered.2 _ (scan_marshal item (.arrayValue :: stack) numbered.1)

theorem scan_fields : ∀ (fields : List (Bytes × Doc)) (stack : List Frame),
    numberedFields fields = true → ∀ scanner, Settled none (.objectValue :: stack) scanner →
      scan none scanner (marshalFields fields ++ [125]) = { position := .endValue, stack := stack }
  | [], stack, _, scanner, settled => by
      rw [marshalFields, List.nil_append, scan_cons, settled 125 (by decide)]
      rfl
  | (key, value) :: rest, stack, numbered, scanner, settled => by
      rw [numberedFields, Bool.and_eq_true] at numbered
      have comma : afterValue (.objectValue :: stack) 44 =
          { position := .beginKey, stack := .objectKey :: stack } := rfl
      have colon : step none { position := .endValue, stack := .objectKey :: stack } 58 =
          { position := .beginValue, stack := .objectValue :: stack } := rfl
      rw [marshalFields, List.cons_append, scan_cons, settled 44 (by decide), comma,
        List.append_assoc, scan_append, scan_quoted none _ key (Or.inr (Or.inl rfl)),
        List.cons_append, scan_cons, colon, List.append_assoc, scan_append]
      exact scan_fields rest stack numbered.2 _
        (scan_marshal value (.objectValue :: stack) numbered.1)

end

theorem accepts_marshal {doc : Doc} (numbered : doc.numbered = true) :
    accepts none doc.marshal = true := by
  rw [accepts, decide_eq_true_eq]
  exact scan_marshal doc [] numbered 32 (by decide)

/-! ### The text of a document -/

theorem numbered_plain {text : Bytes} (number : isNumber text = true) :
    (∀ byte ∈ text, byte ≠ 92) ∧ ∀ byte ∈ text, byte.toNat < 128 := by
  rw [isNumber, Option.any_eq_true] at number
  obtain ⟨state, ends, _⟩ := number
  have plain := fun byte member => numberByte_plain (numberEnd_bytes ends byte member)
  refine ⟨?_, fun byte member => (plain byte member).1⟩
  rintro byte member rfl
  exact (plain 92 member).2.2 (by decide)

theorem escapes_both {first second : Bytes} {left right : Bool}
    (one : escapes .text first = if left then .text else .bad)
    (two : escapes .text second = if right then .text else .bad) :
    escapes .text (first ++ second) = if left && right then .text else .bad := by
  rw [escapes_append, one]
  cases left with
  | true => exact two
  | false => exact escapes_bad second

theorem escapes_cons {byte : UInt8} {rest : Bytes} {fine : Bool} (plain : byte ≠ 92)
    (later : escapes .text rest = if fine then .text else .bad) :
    escapes .text (byte :: rest) = if fine then .text else .bad := by
  have here : escapeStep .text byte = .text := if_neg plain
  rw [escapes, List.foldl_cons, here]
  exact later

theorem escapes_end {bytes : Bytes} {fine : Bool} (close : UInt8) (plain : close ≠ 92)
    (before : escapes .text bytes = if fine then .text else .bad) :
    escapes .text (bytes ++ [close]) = if fine then .text else .bad := by
  have last : escapes .text [close] = if true then .text else .bad := by
    rw [if_pos rfl]
    exact if_neg plain
  have both := escapes_both before last
  rwa [Bool.and_true] at both

theorem escapes_key (key : Bytes) :
    escapes .text (quoted key) = if !key.contains 0 then .text else .bad := by
  rw [escapes_quoted]
  cases key.contains 0 <;> rfl

mutual

theorem escapes_marshal : ∀ doc : Doc, doc.numbered = true →
    escapes .text doc.marshal = if doc.nulFree then .text else .bad
  | .null, _ => by rw [Doc.marshal, Doc.nulFree]; rfl
  | .bool true, _ => by rw [Doc.marshal, Doc.nulFree]; rfl
  | .bool false, _ => by rw [Doc.marshal, Doc.nulFree]; rfl
  | .number text, numbered => by
      rw [Doc.numbered] at numbered
      rw [Doc.marshal, Doc.nulFree, if_pos rfl]
      exact escapes_of_plain (numbered_plain numbered).1
  | .text bytes, _ => by
      rw [Doc.marshal, Doc.nulFree]
      exact escapes_key bytes
  | .list [], _ => by rw [Doc.marshal, Doc.nulFree, nulFreeItems]; rfl
  | .list (item :: rest), numbered => by
      rw [Doc.numbered, numberedItems, Bool.and_eq_true] at numbered
      rw [Doc.marshal, Doc.nulFree, nulFreeItems]
      exact escapes_cons (by decide) (escapes_both (escapes_marshal item numbered.1)
        (escapes_end 93 (by decide) (escapes_items rest numbered.2)))
  | .object [], _ => by rw [Doc.marshal, Doc.nulFree, nulFreeFields]; rfl
  | .object ((key, value) :: rest), numbered => by
      rw [Doc.numbered, numberedFields, Bool.and_eq_true] at numbered
      rw [Doc.marshal, Doc.nulFree, nulFreeFields, Bool.and_assoc]
      exact escapes_cons (by decide) (escapes_both (escapes_key key) (escapes_cons (by decide)
        (escapes_both (escapes_marshal value numbered.1)
          (escapes_end 125 (by decide) (escapes_fields rest numbered.2)))))

theorem escapes_items : ∀ items : List Doc, numberedItems items = true →
    escapes .text (marshalItems items) = if nulFreeItems items then .text else .bad
  | [], _ => by rw [marshalItems, nulFreeItems]; rfl
  | item :: rest, numbered => by
      rw [numberedItems, Bool.and_eq_true] at numbered
      rw [marshalItems, nulFreeItems]
      exact escapes_cons (by decide)
        (escapes_both (escapes_marshal item numbered.1) (escapes_items rest numbered.2))

theorem escapes_fields : ∀ fields : List (Bytes × Doc), numberedFields fields = true →
    escapes .text (marshalFields fields) = if nulFreeFields fields then .text else .bad
  | [], _ => by rw [marshalFields, nulFreeFields]; rfl
  | (key, value) :: rest, numbered => by
      rw [numberedFields, Bool.and_eq_true] at numbered
      rw [marshalFields, nulFreeFields, Bool.and_assoc]
      exact escapes_cons (by decide) (escapes_both (escapes_key key) (escapes_cons (by decide)
        (escapes_both (escapes_marshal value numbered.1) (escapes_fields rest numbered.2))))

end

theorem escapesFine_marshal {doc : Doc} (numbered : doc.numbered = true) :
    escapesFine doc.marshal = doc.nulFree := by
  rw [escapesFine, escapes_marshal doc numbered]
  cases doc.nulFree <;> rfl

theorem valid_cons {byte : UInt8} {rest : Bytes} (small : byte.toNat < 128)
    (whole : valid rest = true) : valid (byte :: rest) = true := by
  have one : valid [byte] = true := valid_of_small [byte] (by simpa using small)
  exact valid_append one whole

mutual

theorem valid_marshal : ∀ doc : Doc, doc.numbered = true → valid doc.marshal = true
  | .null, _ => by
      rw [Doc.marshal]
      exact valid_of_ascii _ rfl
  | .bool true, _ => by
      rw [Doc.marshal]
      exact valid_of_ascii _ rfl
  | .bool false, _ => by
      rw [Doc.marshal]
      exact valid_of_ascii _ rfl
  | .number text, numbered => by
      rw [Doc.numbered] at numbered
      rw [Doc.marshal]
      exact valid_of_small _ (numbered_plain numbered).2
  | .text bytes, _ => by
      rw [Doc.marshal]
      exact valid_quoted bytes
  | .list [], _ => by
      rw [Doc.marshal]
      exact valid_of_ascii _ rfl
  | .list (item :: rest), numbered => by
      rw [Doc.numbered, numberedItems, Bool.and_eq_true] at numbered
      rw [Doc.marshal]
      exact valid_cons (by decide) (valid_append (valid_marshal item numbered.1)
        (valid_append (valid_items rest numbered.2) (valid_of_ascii [93] rfl)))
  | .object [], _ => by
      rw [Doc.marshal]
      exact valid_of_ascii _ rfl
  | .object ((key, value) :: rest), numbered => by
      rw [Doc.numbered, numberedFields, Bool.and_eq_true] at numbered
      rw [Doc.marshal]
      exact valid_cons (by decide) (valid_append (valid_quoted key) (valid_cons (by decide)
        (valid_append (valid_marshal value numbered.1)
          (valid_append (valid_fields rest numbered.2) (valid_of_ascii [125] rfl)))))

theorem valid_items : ∀ items : List Doc, numberedItems items = true →
    valid (marshalItems items) = true
  | [], _ => by rw [marshalItems]; rfl
  | item :: rest, numbered => by
      rw [numberedItems, Bool.and_eq_true] at numbered
      rw [marshalItems]
      exact valid_cons (by decide)
        (valid_append (valid_marshal item numbered.1) (valid_items rest numbered.2))

theorem valid_fields : ∀ fields : List (Bytes × Doc), numberedFields fields = true →
    valid (marshalFields fields) = true
  | [], _ => by rw [marshalFields]; rfl
  | (key, value) :: rest, numbered => by
      rw [numberedFields, Bool.and_eq_true] at numbered
      rw [marshalFields]
      exact valid_cons (by decide) (valid_append (valid_quoted key) (valid_cons (by decide)
        (valid_append (valid_marshal value numbered.1) (valid_fields rest numbered.2))))

end

theorem opened_of_limit {deepest : Nat} {stack : List Frame} {frame : Frame} {position : Position}
    (kept : (opened (some deepest) stack frame position).position ≠ .error) :
    opened (some deepest) stack frame position = opened none stack frame position := by
  unfold opened at kept ⊢
  split
  · rfl
  · rename_i refused
    rw [if_neg refused] at kept
    exact absurd rfl kept

theorem beginValue_of_limit {deepest : Nat} {stack : List Frame} {byte : UInt8}
    (kept : (beginValue (some deepest) stack byte).position ≠ .error) :
    beginValue (some deepest) stack byte = beginValue none stack byte := by
  unfold beginValue at kept ⊢
  split
  · rfl
  · rename_i space
    rw [if_neg space] at kept
    split
    · rename_i brace
      rw [if_pos brace] at kept
      exact opened_of_limit kept
    · rename_i brace
      rw [if_neg brace] at kept
      split
      · rename_i bracket
        rw [if_pos bracket] at kept
        exact opened_of_limit kept
      · rfl

theorem step_of_limit {deepest : Nat} {scanner : Scanner} {byte : UInt8}
    (kept : (step (some deepest) scanner byte).position ≠ .error) :
    step (some deepest) scanner byte = step none scanner byte := by
  cases place : scanner.position with
  | beginValue =>
      simp only [step, place] at kept ⊢
      exact beginValue_of_limit kept
  | beginValueOrEmpty =>
      simp only [step, place] at kept ⊢
      split
      · rfl
      · rename_i space
        rw [if_neg space] at kept
        split
        · rfl
        · rename_i close
          rw [if_neg close] at kept
          exact beginValue_of_limit kept
  | _ => simp only [step, place]

theorem scan_error (limit : Option Nat) (bytes : Bytes) :
    ∀ scanner : Scanner, scanner.position = .error →
      (scan limit scanner bytes).position = .error := by
  induction bytes with
  | nil => exact fun _ wrong => wrong
  | cons byte rest ih =>
      intro scanner wrong
      rw [scan_cons]
      apply ih
      simp only [step, wrong]

theorem scan_of_limit {deepest : Nat} (bytes : Bytes) :
    ∀ scanner : Scanner, (scan (some deepest) scanner bytes).position ≠ .error →
      scan (some deepest) scanner bytes = scan none scanner bytes := by
  induction bytes with
  | nil => exact fun _ _ => rfl
  | cons byte rest ih =>
      intro scanner kept
      rw [scan_cons] at kept ⊢
      have here : (step (some deepest) scanner byte).position ≠ .error :=
        fun wrong => kept (scan_error _ rest _ wrong)
      rw [ih _ kept, step_of_limit here, scan_cons]

theorem accepts_of_limit {deepest : Nat} {bytes : Bytes}
    (accepted : accepts (some deepest) bytes = true) : accepts none bytes = true := by
  rw [accepts, decide_eq_true_eq] at accepted ⊢
  have last : (step (some deepest) (scan (some deepest) start bytes) 32).position ≠ .error := by
    rw [accepted]
    decide
  have before : (scan (some deepest) start bytes).position ≠ .error := by
    intro wrong
    apply last
    simp only [step, wrong]
  rw [← scan_of_limit bytes start before, ← step_of_limit last]
  exact accepted

end JsonText
