/-
The sample of a JSON array that was cut off.

`sample` parses the array as a whole. Where that fails and the input is known to be
truncated, a scan over its characters takes what stands between outermost braces, and
parses each of these for itself. Whether the input counts as truncated is decided by
`sample_file` from the length that the store reports.
-/

import MigrationPlatform.Foundation.OuterBraces
import MigrationPlatform.Sampling.FileSampler

namespace MigrationPlatform.Sampling

open MigrationPlatform.Connectors (Value Data)
open JsonText (accepts)
open JsonStream (IsArray)
open OuterBraces (ObjectArray Member IsObject Scan run next)

structure SampleColumn where
  name : String
  type : String
  nullable : Bool
deriving DecidableEq, Repr

structure JsonSample where
  columns : List SampleColumn
  rows : List Data
  rowCount : Nat
  truncated : Bool
  bytesRead : Nat

/-- `infer_column_type`, and how values that are no texts are printed. -/
structure Typing where
  inferColumnType : List String → String
  display : Value → String

/-- The variables of the scan. `start` holds the text from that index on. -/
structure Walk where
  depth : Int := 0
  start : Option (List Char) := none
  inString : Bool := false
  escape : Bool := false
  out : List Value := []

section Sampler

variable (parsers : Parsers)

def parsed (text : List Char) : List Value := (parsers.fromStr (String.ofList text)).toOption.toList

def Walk.step (w : Walk) (ch : Char) : Walk :=
  let start := w.start.map (fun text => text ++ [ch])
  if w.inString = true then
    if w.escape = true then { w with start := start, escape := false }
    else if ch = '\\' then { w with start := start, escape := true }
    else if ch = '"' then { w with start := start, inString := false }
    else { w with start := start }
  else if ch = '"' then { w with start := start, inString := true }
  else if ch = '{' then
    { w with depth := w.depth + 1, start := if w.depth = 0 then some [ch] else start }
  else if ch = '}' then
    if w.depth - 1 = 0 then
      { w with
        depth := w.depth - 1
        start := none
        out := w.out ++ start.toList.flatMap (parsed parsers) }
    else { w with depth := w.depth - 1, start := start }
  else { w with start := start }

def bestEffortArray (bytes : Utf8.Bytes) : Except String (List Value) :=
  match parsers.fromUtf8 bytes with
  | none => .error "json: non-utf8 input"
  | some s =>
      let out := (s.toList.foldl (Walk.step parsers) {}).out
      if out = [] then .error "json: could not extract any complete records" else .ok out

def parseArray (bytes : Utf8.Bytes) (truncatedInput : Bool) : Except String (List Value) :=
  match parsers.fromSlice bytes with
  | .ok values => .ok values
  | .error problem =>
      if truncatedInput = true then bestEffortArray parsers bytes else .error ("json: " ++ problem)

def sampleRecords (bytes : Utf8.Bytes) (truncatedInput : Bool) : Except String (List Value) :=
  let trimmed := stripBom bytes
  if (trimmed.find? (fun b => !isAsciiWhitespace b)).getD 0 = 91 then
    parseArray parsers trimmed truncatedInput
  else .ok (parseNdjson parsers trimmed)

def rawCell (display : Value → String) : Option Value → String
  | none => ""
  | some .null => ""
  | some (.text value) => value
  | some (.bool value) => if value = true then "true" else "false"
  | some (.number text) => text
  | some other => display other

def isMissing : Option Value → Bool
  | none => true
  | some .null => true
  | _ => false

def sampleColumn (typing : Typing) (rows : List Data) (name : String) : SampleColumn :=
  { name := name
    type := typing.inferColumnType (rows.map (fun row => rawCell typing.display (row.lookup name)))
    nullable := rows.any (fun row => isMissing (row.lookup name)) }

def sample (typing : Typing) (bytes : Utf8.Bytes) (rowCap : Nat) (truncatedInput : Bool) :
    Except String JsonSample :=
  if bytes = [] then .error "file is empty"
  else
    match sampleRecords parsers bytes truncatedInput with
    | .error problem => .error problem
    | .ok [] => .error "json: no records"
    | .ok records =>
        (objectRows (records.take rowCap)).map (fun rows =>
          { columns := (unionKeys rows).map (sampleColumn typing rows)
            rows := rows
            rowCount := rows.length
            truncated := truncatedInput || decide (rowCap < records.length)
            bytesRead := bytes.length })

end Sampler

structure ObjectAnswer where
  contentLength : Option Int
  body : Utf8.Bytes

def getRange (object : Utf8.Bytes) : ObjectAnswer :=
  { contentLength := some (object.take byteCap).length, body := object.take byteCap }

def truncatedInput (answer : ObjectAnswer) : Bool :=
  let totalSize := answer.contentLength.getD (-1)
  decide (totalSize < 0) || decide (answer.body.length < totalSize.toNat)

def utf8Text (bytes : Utf8.Bytes) : Option String :=
  if Utf8.valid bytes = true then
    some (String.ofList ((Utf8.runes bytes).filterMap (fun rune =>
      match rune with
      | .scalar char => some char
      | .invalid _ => none)))
  else none

theorem utf8Text_encode (chars : List Char) :
    utf8Text (Utf8.encode chars) = some (String.ofList chars) := by
  have whole : Utf8.valid (Utf8.encode chars) = true := (Utf8.valid_iff _).mpr ⟨chars, rfl⟩
  unfold utf8Text
  rw [if_pos whole, Utf8.runes_encode, List.filterMap_map]
  exact congrArg (fun list => some (String.ofList list)) (List.filterMap_some)

def Parsers.value (parsers : Parsers) (text : Utf8.Bytes) : Option Value :=
  (utf8Text text).bind (fun s => (parsers.fromStr s).toOption)

private theorem value_encode (parsers : Parsers) (chars : List Char) :
    (parsers.value (Utf8.encode chars)).toList = parsed parsers chars := by
  unfold Parsers.value
  rw [utf8Text_encode]
  rfl

structure InStep (parsers : Parsers) (w : Walk) (s : Scan) : Prop where
  depth : w.depth = s.depth
  start : w.start.map Utf8.encode = s.text
  inString : w.inString = s.inString
  escape : w.escape = s.escape
  out : w.out = s.found.flatMap (fun text => (parsers.value text).toList)

section Steps

variable {parsers : Parsers} {w : Walk} {s : Scan}

theorem run_large {bytes : Utf8.Bytes} (large : ∀ byte ∈ bytes, 128 ≤ byte.toNat) :
    ∀ s : Scan, bytes ≠ [] → run s bytes =
      { s with
        text := s.text.map (fun text => text ++ bytes)
        escape := !s.inString && s.escape } := by
  have plain : ∀ byte : UInt8, 128 ≤ byte.toNat → ∀ code : UInt8, code.toNat < 128 → byte ≠ code := by
    intro byte above code small same
    rw [same] at above
    omega
  have one : ∀ (byte : UInt8) (s : Scan), 128 ≤ byte.toNat → next s byte =
      { s with
        text := s.text.map (fun text => text ++ [byte])
        escape := !s.inString && s.escape } := by
    intro byte s above
    unfold next
    cases inString : s.inString with
    | true =>
        have notQuote : (byte != 34) = true := bne_iff_ne.mpr (plain byte above 34 (by decide))
        have notSlash : (byte == 92) = false :=
          beq_eq_false_iff_ne.mpr (plain byte above 92 (by decide))
        rw [if_pos rfl, notQuote, notSlash, Bool.and_false, Bool.or_true]
        rfl
    | false =>
        rw [if_neg Bool.false_ne_true, if_neg (plain byte above 34 (by decide)),
          if_neg (plain byte above 123 (by decide)), if_neg (plain byte above 125 (by decide))]
        simp only [Bool.not_false, Bool.true_and]
  induction bytes with
  | nil =>
      intro s nonempty
      exact absurd rfl nonempty
  | cons byte rest ih =>
      intro s _nonempty
      obtain ⟨above, later⟩ := List.forall_mem_cons.mp large
      rw [OuterBraces.run_cons, one byte s above]
      by_cases last : rest = []
      · rw [last]
        rfl
      · rw [ih later _ last, Option.map_map]
        have joined : (fun text : Utf8.Bytes => text ++ rest) ∘ (fun text => text ++ [byte]) =
            (fun text => text ++ byte :: rest) := by
          funext text
          exact List.append_assoc text [byte] rest
        have once : (!s.inString && (!s.inString && s.escape)) = (!s.inString && s.escape) := by
          rw [← Bool.and_assoc, Bool.and_self]
        simp only [joined, once]

private theorem encode_snoc (text : List Char) (c : Char) :
    Utf8.encode (text ++ [c]) = Utf8.encode text ++ String.utf8EncodeChar c := by
  unfold Utf8.encode
  rw [List.flatMap_append, List.flatMap_singleton]

theorem start_grown (same : InStep parsers w s) (c : Char) :
    (w.start.map (fun text => text ++ [c])).map Utf8.encode =
      s.text.map (fun text => text ++ String.utf8EncodeChar c) := by
  rw [← same.start, Option.map_map, Option.map_map]
  have grown : Utf8.encode ∘ (fun text => text ++ [c]) =
      (fun bytes => bytes ++ String.utf8EncodeChar c) ∘ Utf8.encode := by
    funext text
    exact encode_snoc text c
  rw [grown]

theorem InStep.large (same : InStep parsers w s) {c : Char} (large : 128 ≤ c.toNat) :
    InStep parsers (w.step parsers c) (run s (String.utf8EncodeChar c)) := by
  have other : ∀ d : Char, d.toNat < 128 → c ≠ d := by
    intro d small equal
    rw [equal] at large
    omega
  rw [run_large (Utf8.encode_large large) s (Utf8.encodeChar_ne_nil c)]
  have stepped : w.step parsers c = { w with
      start := w.start.map (fun text => text ++ [c])
      escape := !w.inString && w.escape } := by
    unfold Walk.step
    dsimp only
    rw [if_neg (other '\\' (by decide)), if_neg (other '"' (by decide)),
      if_neg (other '{' (by decide)), if_neg (other '}' (by decide))]
    cases inString : w.inString with
    | true =>
        cases escape : w.escape with
        | true =>
            rw [if_pos rfl, if_pos rfl]
            rfl
        | false =>
            rw [if_pos rfl, if_neg Bool.false_ne_true]
            rfl
    | false =>
        rw [if_neg Bool.false_ne_true, if_neg (other '"' (by decide))]
        rfl
  rw [stepped]
  refine ⟨same.depth, start_grown same c, same.inString, ?_, same.out⟩
  dsimp only
  rw [same.inString, same.escape]

theorem InStep.small (same : InStep parsers w s) {c : Char} (small : c.toNat < 128) :
    InStep parsers (w.step parsers c) (run s (String.utf8EncodeChar c)) := by
  have grown := start_grown same c
  have code : ∀ (d : Char) (byte : UInt8), d.toNat = byte.toNat →
      (c = d ↔ UInt8.ofNat c.toNat = byte) := by
    intro d byte number
    rw [← UInt8.toNat_inj, UInt8.toNat_ofNat', Nat.mod_eq_of_lt (by omega), ← number]
    exact ⟨fun equal => congrArg Char.toNat equal, fun equal => Char.toNat_inj.mp equal⟩
  have single : Utf8.encode [c] = String.utf8EncodeChar c := List.flatMap_singleton ..
  rw [Utf8.encode_small small] at grown single ⊢
  generalize UInt8.ofNat c.toNat = byte at code grown single ⊢
  have slash := code '\\' 92 rfl
  have quote := code '"' 34 rfl
  have opening := code '{' 123 rfl
  have closing := code '}' 125 rfl
  change InStep parsers (w.step parsers c) (next s byte)
  unfold Walk.step next
  dsimp only
  rw [same.inString, same.escape, same.depth]
  simp only [slash, quote, opening, closing]
  cases inString : s.inString with
  | true =>
      rw [if_pos rfl, if_pos rfl]
      cases escape : s.escape with
      | true =>
          rw [if_pos rfl]
          exact ⟨rfl, grown, rfl, rfl, same.out⟩
      | false =>
          rw [if_neg Bool.false_ne_true]
          by_cases isSlash : byte = 92
          · rw [if_pos isSlash, isSlash]
            rw [isSlash] at grown
            exact ⟨rfl, grown, rfl, rfl, same.out⟩
          · have notSlash : (byte == 92) = false := beq_eq_false_iff_ne.mpr isSlash
            rw [if_neg isSlash, notSlash]
            by_cases isQuote : byte = 34
            · rw [if_pos isQuote, isQuote]
              rw [isQuote] at grown
              exact ⟨rfl, grown, rfl, rfl, same.out⟩
            · have notQuote : (byte != 34) = true := bne_iff_ne.mpr isQuote
              rw [if_neg isQuote, notQuote]
              exact ⟨rfl, grown, rfl, rfl, same.out⟩
  | false =>
      rw [if_neg Bool.false_ne_true, if_neg Bool.false_ne_true]
      by_cases isQuote : byte = 34
      · rw [if_pos isQuote, if_pos isQuote]
        exact ⟨rfl, grown, rfl, rfl, same.out⟩
      rw [if_neg isQuote, if_neg isQuote]
      by_cases opens : byte = 123
      · rw [if_pos opens, if_pos opens]
        refine ⟨rfl, ?_, rfl, rfl, same.out⟩
        dsimp only
        by_cases flat : s.depth = 0
        · rw [if_pos flat, if_pos flat]
          exact congrArg some single
        · rw [if_neg flat, if_neg flat]
          exact grown
      rw [if_neg opens, if_neg opens]
      by_cases closes : byte = 125
      · rw [if_pos closes, if_pos closes]
        by_cases flat : s.depth - 1 = 0
        · rw [if_pos flat, if_pos flat]
          refine ⟨rfl, rfl, rfl, rfl, ?_⟩
          dsimp only
          rw [List.flatMap_append, ← same.out, ← grown]
          cases w.start with
          | none => rfl
          | some text =>
              rw [Option.map_some, Option.map_some, Option.toList_some, Option.toList_some,
                List.flatMap_singleton, List.flatMap_singleton, value_encode]
        · rw [if_neg flat, if_neg flat]
          exact ⟨rfl, grown, rfl, rfl, same.out⟩
      rw [if_neg closes, if_neg closes]
      exact ⟨rfl, grown, rfl, rfl, same.out⟩

theorem InStep.step (same : InStep parsers w s) (c : Char) :
    InStep parsers (w.step parsers c) (run s (String.utf8EncodeChar c)) := by
  rcases Nat.lt_or_ge c.toNat 128 with small | large
  · exact same.small small
  · exact same.large large

theorem inStep_run (parsers : Parsers) (chars : List Char) :
    ∀ (w : Walk) (s : Scan), InStep parsers w s →
      InStep parsers (chars.foldl (Walk.step parsers) w) (run s (Utf8.encode chars)) := by
  induction chars with
  | nil =>
      intro w s same
      exact same
  | cons c rest ih =>
      intro w s same
      have split : Utf8.encode (c :: rest) = String.utf8EncodeChar c ++ Utf8.encode rest := rfl
      rw [List.foldl_cons, split, OuterBraces.run_append]
      exact ih _ _ (same.step c)

private theorem walk_out (parsers : Parsers) (chars : List Char) :
    (chars.foldl (Walk.step parsers) {}).out =
      (run {} (Utf8.encode chars)).found.flatMap (fun text => (parsers.value text).toList) :=
  (inStep_run parsers chars {} {} ⟨rfl, rfl, rfl, rfl, rfl⟩).out

end Steps

/-! ### What the sample shows -/

/-- What `std::str` and `serde_json` promise: an array is parsed to the values of its
elements, and what stands in braces is no value but an object. -/
structure Parsers.Reads (parsers : Parsers) : Prop where
  utf8 : ∀ bytes, parsers.fromUtf8 bytes = utf8Text bytes
  array : ∀ bytes values, parsers.fromSlice bytes = .ok values → ∃ items,
    IsArray none items bytes ∧ List.Forall₂ (fun item value =>
      parsers.value (item.dropWhile JsonText.isSpace) = some value) items values
  object : ∀ text value, IsObject text → parsers.value text = some value →
    ∃ fields, value = .object fields

def ShowsElements (parsers : Parsers) (elements : List Member) (rows : List Data) : Prop :=
  List.Forall₂ (fun (element : Member) row => parsers.value element.text = some (.object row))
    elements rows

section Samples

variable {parsers : Parsers} {array : ObjectArray} {n : Nat}

def elementValues (parsers : Parsers) (elements : List Member) : List Value :=
  elements.flatMap (fun element => (parsers.value element.text).toList)

theorem bestEffortArray_eq (reads : parsers.Reads) (array : ObjectArray) (n : Nat) :
    bestEffortArray parsers (array.bytes.take n) =
      if Utf8.valid (array.bytes.take n) = true then
        if elementValues parsers (array.contained n) = [] then
          .error "json: could not extract any complete records"
        else .ok (elementValues parsers (array.contained n))
      else .error "json: non-utf8 input" := by
  unfold bestEffortArray
  rw [reads.utf8]
  by_cases whole : Utf8.valid (array.bytes.take n) = true
  · obtain ⟨chars, same⟩ := (Utf8.valid_iff _).mp whole
    have out : (chars.foldl (Walk.step parsers) {}).out =
        elementValues parsers (array.contained n) := by
      rw [walk_out, ← same, array.run_take, List.flatMap_map]
      rfl
    rw [if_pos whole, same, utf8Text_encode]
    dsimp only
    rw [String.toList_ofList, out]
  · unfold utf8Text
    rw [if_neg whole, if_neg whole]

theorem opens_of_contained (some_ : array.contained n ≠ []) :
    ∃ rest, array.bytes.take n = array.lead ++ 91 :: rest := by
  have room : array.lead.length + 1 ≤ n := by
    by_contra short
    have none_ : n - (array.lead.length + 1) = 0 := by omega
    apply some_
    unfold ObjectArray.contained
    rw [none_]
    cases array.members with
    | nil => rfl
    | cons member rest =>
        have nonempty : ¬(member.gap ++ member.text).length ≤ 0 := by
          rw [List.length_append]
          have filled := List.length_pos_iff.mpr member.object.ne_nil
          omega
        exact if_neg nonempty
  have shape : array.bytes = (array.lead ++ [91]) ++
      (OuterBraces.layout array.members ++ (array.gap ++ 93 :: array.trail)) := by
    unfold ObjectArray.bytes
    rw [List.append_assoc, List.singleton_append]
  refine ⟨(OuterBraces.layout array.members ++ (array.gap ++ 93 :: array.trail)).take
    (n - (array.lead ++ [91]).length), ?_⟩
  rw [shape, List.take_append, List.take_of_length_le (by rw [List.length_append]; exact room),
    List.append_assoc, List.singleton_append]

private theorem ascii_of_space {byte : UInt8} (space : JsonText.isSpace byte = true) :
    isAsciiWhitespace byte = true := by
  rcases JsonText.eq_of_isSpace space with rfl | rfl | rfl | rfl
  · decide
  · decide
  · decide
  · decide

private theorem stripBom_of_spaces {lead : Utf8.Bytes} (leading : JsonStream.Spaces lead)
    (rest : Utf8.Bytes) : stripBom (lead ++ 91 :: rest) = lead ++ 91 :: rest := by
  have unmarked : ∀ (byte : UInt8) (others : Utf8.Bytes), byte ≠ 0xEF →
      stripBom (byte :: others) = byte :: others := by
    intro byte others other
    unfold stripBom
    have differs : ((0xEF : UInt8) == byte) = false := beq_eq_false_iff_ne.mpr other.symm
    rw [List.isPrefixOf_cons_cons, differs, Bool.false_and, if_neg Bool.false_ne_true]
  cases lead with
  | nil => exact unmarked 91 rest (by decide)
  | cons byte others =>
      apply unmarked byte
      intro same
      have space := leading byte List.mem_cons_self
      rw [same] at space
      exact absurd space (by decide)

theorem sampleRecords_eq (some_ : array.contained n ≠ []) :
    sampleRecords parsers (array.bytes.take n) true = parseArray parsers (array.bytes.take n) true := by
  obtain ⟨rest, shape⟩ := opens_of_contained some_
  have bracket : (array.lead ++ 91 :: rest).find? (fun b => !isAsciiWhitespace b) = some 91 := by
    rw [List.find?_append, List.find?_eq_none.mpr]
    · rfl
    · intro byte member
      rw [ascii_of_space (array.leading byte member)]
      exact Bool.false_ne_true
  unfold sampleRecords
  dsimp only
  rw [shape, stripBom_of_spaces array.leading, bracket]
  rfl

theorem shows_iff (reads : parsers.Reads) (elements : List Member) (cap : Nat) :
    (∃ rows, objectRows ((elementValues parsers elements).take cap) = .ok rows ∧
        ShowsElements parsers (elements.take cap) rows) ↔
      ∀ element ∈ elements.take cap, (parsers.value element.text).isSome = true := by
  induction elements generalizing cap with
  | nil =>
      have none_ : (elementValues parsers []).take cap = [] := List.take_nil
      rw [List.take_nil, none_]
      exact ⟨fun _ => List.forall_mem_nil _, fun _ => ⟨[], rfl, .nil⟩⟩
  | cons element rest ih =>
      cases cap with
      | zero => exact ⟨fun _ => List.forall_mem_nil _, fun _ => ⟨[], rfl, .nil⟩⟩
      | succ cap =>
          rw [List.take_succ_cons, List.forall_mem_cons]
          cases found : parsers.value element.text with
          | none =>
              constructor
              · intro shown
                obtain ⟨rows, _, shows⟩ := shown
                cases shows with
                | cons first _ =>
                    rw [found] at first
                    cases first
              · intro both
                exact absurd both.1 Bool.false_ne_true
          | some value =>
              obtain ⟨fields, rfl⟩ := reads.object _ _ element.object found
              have values : (elementValues parsers (element :: rest)).take (cap + 1) =
                  .object fields :: (elementValues parsers rest).take cap := by
                unfold elementValues
                rw [List.flatMap_cons, found]
                rfl
              rw [values, and_iff_right (by rfl), ← ih cap]
              constructor
              · intro shown
                obtain ⟨rows, ok, shows⟩ := shown
                unfold objectRows at ok
                cases later : objectRows ((elementValues parsers rest).take cap) with
                | error message =>
                    rw [later] at ok
                    cases ok
                | ok others =>
                    rw [later] at ok
                    cases ok
                    cases shows with
                    | cons _ behind => exact ⟨others, rfl, behind⟩
              · intro shown
                obtain ⟨others, ok, shows⟩ := shown
                refine ⟨fields :: others, ?_, .cons found shows⟩
                unfold objectRows
                rw [ok]
                rfl

private theorem elementValues_of_parsed {items : List Utf8.Bytes} {values : List Value}
    (parsed_ : List.Forall₂ (fun item value =>
      parsers.value (item.dropWhile JsonText.isSpace) = some value) items values) :
    (items.map (List.dropWhile JsonText.isSpace)).flatMap
        (fun text => (parsers.value text).toList) = values := by
  induction parsed_ with
  | nil => rfl
  | cons first _ ih =>
      rw [List.map_cons, List.flatMap_cons, first, ih]
      rfl

private theorem valid_of_spaces {bytes more : Utf8.Bytes} (spaces : JsonStream.Spaces more)
    (whole : Utf8.valid (bytes ++ more) = true) : Utf8.valid bytes = true := by
  have small : ∀ byte ∈ more, byte.toNat < 128 := by
    intro byte member
    rcases JsonText.eq_of_isSpace (spaces byte member) with rfl | rfl | rfl | rfl
    · decide
    · decide
    · decide
    · decide
  obtain ⟨chars, same⟩ := (Utf8.valid_iff more).mp (Utf8.valid_of_small more small)
  rw [same, Utf8.valid_append_encode] at whole
  exact whole

theorem parseArray_eq (reads : parsers.Reads) (whole : Utf8.valid array.bytes = true)
    (some_ : array.contained n ≠ []) :
    parseArray parsers (array.bytes.take n) true = bestEffortArray parsers (array.bytes.take n) := by
  unfold parseArray
  cases sliced : parsers.fromSlice (array.bytes.take n) with
  | error problem => rfl
  | ok values =>
      obtain ⟨items, isArray, each⟩ := reads.array _ values sliced
      obtain ⟨all, texts⟩ := array.contained_of_isArray isArray
      have valid : Utf8.valid (array.bytes.take n) = true := by
        obtain ⟨others, wholeArray, _⟩ := array.isArray
        have split : array.bytes.take n ++ array.bytes.drop n = array.bytes :=
          List.take_append_drop n _
        rw [← split] at wholeArray whole
        exact valid_of_spaces (isArray.of_prefix wholeArray).2 whole
      have values_eq : elementValues parsers (array.contained n) = values := by
        rw [← elementValues_of_parsed each, texts, List.flatMap_map, all]
        rfl
      have filled : values ≠ [] := by
        intro empty
        rw [empty] at each
        cases each
        have none_ : array.members.map Member.text = [] := texts.symm
        rw [all] at some_
        exact some_ (List.map_eq_nil_iff.mp none_)
      rw [bestEffortArray_eq reads, if_pos valid, values_eq, if_neg filled]

private theorem exists_value_iff (elements : List Member) :
    elementValues parsers elements ≠ [] ↔
      ∃ element ∈ elements, (parsers.value element.text).isSome = true := by
  unfold elementValues
  rw [ne_eq, List.flatMap_eq_nil_iff]
  constructor
  · intro filled
    by_contra none_
    apply filled
    intro element member
    cases found : parsers.value element.text with
    | none => rfl
    | some value => exact absurd ⟨element, member, by rw [found]; rfl⟩ none_
  · intro given empty
    obtain ⟨element, member, parses⟩ := given
    obtain ⟨value, found⟩ := Option.isSome_iff_exists.mp parses
    have nothing := empty element member
    rw [found] at nothing
    cases nothing

theorem sample_cut_iff (typing : Typing) (reads : parsers.Reads)
    (whole : Utf8.valid array.bytes = true) (some_ : array.contained n ≠ []) (cap : Nat) :
    (∃ s, sample parsers typing (array.bytes.take n) cap true = .ok s ∧ s.truncated = true ∧
        ShowsElements parsers ((array.contained n).take cap) s.rows) ↔
      Utf8.valid (array.bytes.take n) = true ∧
        (∃ element ∈ array.contained n, (parsers.value element.text).isSome = true) ∧
        ∀ element ∈ (array.contained n).take cap,
          (parsers.value element.text).isSome = true := by
  have nonempty : array.bytes.take n ≠ [] := by
    obtain ⟨rest, shape⟩ := opens_of_contained some_
    rw [shape]
    exact List.append_ne_nil_of_right_ne_nil _ (List.cons_ne_nil _ _)
  rw [← exists_value_iff, ← shows_iff reads]
  unfold sample
  rw [if_neg nonempty, sampleRecords_eq some_, parseArray_eq reads whole some_,
    bestEffortArray_eq reads]
  by_cases valid : Utf8.valid (array.bytes.take n) = true
  · rw [if_pos valid, and_iff_right valid]
    by_cases empty : elementValues parsers (array.contained n) = []
    · rw [if_pos empty]
      constructor
      · intro shown
        obtain ⟨s, impossible, _⟩ := shown
        cases impossible
      · intro both
        exact absurd empty both.1
    · rw [if_neg empty, and_iff_right empty]
      cases records : elementValues parsers (array.contained n) with
      | nil => exact absurd records empty
      | cons first rest =>
          dsimp only
          cases rows : objectRows ((first :: rest).take cap) with
          | error message =>
              constructor
              · intro shown
                obtain ⟨s, impossible, _⟩ := shown
                cases impossible
              · intro shown
                obtain ⟨rows, impossible, _⟩ := shown
                cases impossible
          | ok found =>
              constructor
              · intro shown
                obtain ⟨s, same, _, shows⟩ := shown
                cases same
                exact ⟨found, rfl, shows⟩
              · intro shown
                obtain ⟨others, same, shows⟩ := shown
                cases same
                exact ⟨_, rfl, rfl, shows⟩
  · rw [if_neg valid]
    constructor
    · intro shown
      obtain ⟨s, impossible, _⟩ := shown
      cases impossible
    · intro both
      exact absurd both.1 valid

private theorem truncatedInput_getRange (object : Utf8.Bytes) :
    truncatedInput (getRange object) = false := by
  unfold truncatedInput getRange
  dsimp only
  rw [Option.getD_some, Int.toNat_natCast, Bool.or_eq_false_iff]
  exact ⟨decide_eq_false (Int.not_lt.mpr (Int.natCast_nonneg _)),
    decide_eq_false (Nat.lt_irrefl _)⟩

private theorem truncatedInput_iff (object : Utf8.Bytes) :
    (truncatedInput (getRange object) = true ↔ (getRange object).body.length < object.length) ↔
      object.length ≤ byteCap := by
  rw [truncatedInput_getRange]
  unfold getRange
  dsimp only
  rw [List.length_take]
  constructor
  · intro same
    by_contra longer
    exact Bool.false_ne_true (same.mpr (by omega))
  · intro fits
    constructor
    · intro impossible
      exact absurd impossible Bool.false_ne_true
    · intro shorter
      omega

/-- The sampler on the beginning of an array, and the flag that `sample_file` gives it. -/
theorem truncated_sample_iff (typing : Typing) (reads : parsers.Reads) :
    (∀ (array : ObjectArray) (n cap : Nat), Utf8.valid array.bytes = true →
      array.contained n ≠ [] →
      ((∃ s, sample parsers typing (array.bytes.take n) cap true = .ok s ∧ s.truncated = true ∧
          ShowsElements parsers ((array.contained n).take cap) s.rows) ↔
        Utf8.valid (array.bytes.take n) = true ∧
          (∃ element ∈ array.contained n, (parsers.value element.text).isSome = true) ∧
          ∀ element ∈ (array.contained n).take cap,
            (parsers.value element.text).isSome = true)) ∧
    ∀ object : Utf8.Bytes,
      (truncatedInput (getRange object) = true ↔ (getRange object).body.length < object.length) ↔
        object.length ≤ byteCap :=
  ⟨fun _array _n cap whole some_ => sample_cut_iff typing reads whole some_ cap,
    truncatedInput_iff⟩

end Samples

/-! ### One array, cut within a name -/

def emptyObjectParsers : Parsers where
  fromUtf8 := utf8Text
  fromSlice := fun _ => .error "EOF while parsing a list"
  fromStr := fun s => if s = "\x7b\x7d" then .ok (.object []) else .error "expected value"
  xmlSample := fun _ _ => .error "no records"

theorem emptyObject_reads : emptyObjectParsers.Reads where
  utf8 := fun _ => rfl
  array := by
    intro bytes values impossible
    cases impossible
  object := by
    intro text value _isObject parses
    obtain ⟨s, _, taken⟩ := Option.bind_eq_some_iff.mp parses
    unfold emptyObjectParsers at taken
    dsimp only at taken
    split at taken
    · cases taken
      exact ⟨[], rfl⟩
    · cases taken

def untyped : Typing where
  inferColumnType := fun _ => "string"
  display := fun _ => ""

theorem isObject_of_bytes {text : Utf8.Bytes} (accepted : accepts none text = true)
    (opens : text.head? = some 123) (closes : text.getLast? = some 125) : IsObject text := by
  refine ⟨⟨accepted, ?_⟩, opens⟩
  intro byte member
  rw [closes] at member
  cases member
  rfl

def accentArray : ObjectArray where
  lead := []
  members :=
    [{ gap := []
       text := [123, 125]
       quiet := List.forall_mem_nil _
       object := isObject_of_bytes (by decide) rfl rfl },
     { gap := [44]
       text := [123, 34, 0xC3, 0xA9, 34, 58, 48, 125]
       quiet := fun byte member => by
         rw [List.mem_singleton.mp member]
         exact ⟨by decide, by decide, by decide⟩
       object := isObject_of_bytes (by decide) rfl rfl }]
  gap := []
  trail := []
  leading := List.forall_mem_nil _
  separated := ⟨List.forall_mem_nil _, ⟨[], [], List.forall_mem_nil _, List.forall_mem_nil _, rfl⟩,
    trivial⟩
  closing := List.forall_mem_nil _
  trailing := List.forall_mem_nil _

theorem accentArray_sampled :
    (∃ s, sample emptyObjectParsers untyped (accentArray.bytes.take 6) 25 true = .ok s ∧
      s.truncated = true ∧
      ShowsElements emptyObjectParsers ((accentArray.contained 6).take 25) s.rows) ∧
    ((truncatedInput (getRange accentArray.bytes) = true ↔
        (getRange accentArray.bytes).body.length < accentArray.bytes.length) ↔
      accentArray.bytes.length ≤ byteCap) := by
  have iffs := @truncated_sample_iff emptyObjectParsers untyped emptyObject_reads
  have parses : ∀ element ∈ accentArray.contained 6,
      (emptyObjectParsers.value element.text).isSome = true := by
    intro element member
    rw [List.mem_singleton.mp member]
    decide
  refine ⟨(iffs.1 accentArray 6 25 (by decide) (List.cons_ne_nil _ _)).mpr ⟨by decide,
    ⟨_, List.mem_cons_self, parses _ List.mem_cons_self⟩, ?_⟩, iffs.2 accentArray.bytes⟩
  intro element member
  exact parses element (List.mem_of_mem_take member)

/-- Behind the first byte of the accented letter nothing is shown any more. -/
theorem accentArray_refused :
    Utf8.valid accentArray.bytes = true ∧
      (accentArray.contained 7).map Member.text = [[123, 125]] ∧
      sample emptyObjectParsers untyped (accentArray.bytes.take 7) 25 true =
        .error "json: non-utf8 input" := by
  refine ⟨by decide, rfl, ?_⟩
  have filled : accentArray.contained 7 ≠ [] := List.cons_ne_nil _ _
  have cut : ¬Utf8.valid (accentArray.bytes.take 7) = true := by decide
  unfold sample
  rw [sampleRecords_eq filled, parseArray_eq emptyObject_reads (by decide) filled,
    bestEffortArray_eq emptyObject_reads, if_neg cut]
  rfl

end MigrationPlatform.Sampling
