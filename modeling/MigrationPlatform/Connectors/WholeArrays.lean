/-
When a JSON source that was read to its end is a whole array.

`Next` takes a missing next element for the end of the source. `More` says so at a
closing bracket, but also at a closing brace, at the end of the file and where
reading fails, and nobody looks at what comes behind the bracket.
-/

import MigrationPlatform.Connectors.FileConnectors
import MigrationPlatform.Foundation.JsonStream

namespace MigrationPlatform.Connectors

open ResumableIteration JsonText JsonStream Trimming Utf8

inductive TokenState
  | topValue
  | arrayStart
  | arrayComma
deriving DecidableEq, Repr

/-- What a decoder has before it. Without an error, the bytes end with the file. -/
structure JsonBytes where
  bytes : Utf8.Bytes
  readError : Option String := none
  state : TokenState := .topValue

def jsonNestingDepth : Nat := 10000

section Decoder

variable (unmarshal : Utf8.Bytes → Except String Data) (syntaxError : Utf8.Bytes → String)

def JsonBytes.reading (source : JsonBytes) (bytes : Utf8.Bytes) : Reading :=
  readValue (some jsonNestingDepth) source.readError.isNone bytes

/-- The first token. A value other than an array or an object is decoded whole. -/
def JsonBytes.token (source : JsonBytes) : JsonToken JsonBytes :=
  match source.bytes.dropWhile JsonText.isSpace with
  | [] => .failed (source.readError.getD "EOF")
  | byte :: rest =>
      if byte = 91 then .delim '[' { source with bytes := rest, state := .arrayStart }
      else if byte = 123 then .delim '\x7b' { source with bytes := rest }
      else
        match source.reading (byte :: rest) with
        | .value _ _ => .literal
        | .cut => .failed (source.readError.getD "unexpected EOF")
        | .bad => .failed (syntaxError (byte :: rest))

def JsonBytes.more (source : JsonBytes) : Bool :=
  match source.bytes.dropWhile JsonText.isSpace with
  | [] => false
  | byte :: _ => byte != 93 && byte != 125

/-- `tokenPrepareForDecode`: a comma comes before every element but the first. -/
def JsonBytes.prepare (source : JsonBytes) : Except (Option String) Utf8.Bytes :=
  match source.state with
  | .arrayComma =>
      match source.bytes.dropWhile JsonText.isSpace with
      | [] => .error source.readError
      | byte :: rest =>
          if byte = 44 then .ok rest else .error (some "expected comma after array element")
  | _ => .ok source.bytes

def JsonBytes.decode (source : JsonBytes) : JsonDecode JsonBytes :=
  match source.prepare with
  | .error none => .eof source
  | .error (some message) => .failed message
  | .ok bytes =>
      match source.reading bytes with
      | .bad => .failed (syntaxError bytes)
      | .cut =>
          match source.readError with
          | some message => .failed message
          | none => if bytes.all JsonText.isSpace = true then .eof source else .failed "unexpected EOF"
      | .value text rest =>
          match unmarshal text with
          | .error message => .failed message
          | .ok data => .value data { source with bytes := rest, state := .arrayComma }

def bytesDecoder : JsonDecoder JsonBytes where
  token := JsonBytes.token syntaxError
  more := JsonBytes.more
  decode := JsonBytes.decode unmarshal syntaxError

end Decoder

section Elements

variable {unmarshal : Utf8.Bytes → Except String Data} {syntaxError : Utf8.Bytes → String}

def JsonBytes.first (source : JsonBytes) : Bool := decide (source.state ≠ .arrayComma)

private theorem prepare_ok {source : JsonBytes} {bytes : Utf8.Bytes}
    (prepared : source.prepare = .ok bytes) :
    ∃ gap, Separates source.first gap ∧ source.bytes = gap ++ bytes := by
  unfold JsonBytes.prepare at prepared
  unfold JsonBytes.first
  split at prepared
  · rename_i comma
    rw [comma]
    split at prepared
    · cases prepared
    · rename_i byte rest behind
      split at prepared
      · rename_i same
        cases prepared
        obtain ⟨spaces, split, all⟩ := exists_dropWhile (p := JsonText.isSpace) source.bytes
        refine ⟨spaces ++ [44], ⟨spaces, all, rfl⟩, ?_⟩
        rw [split, behind, same, List.append_assoc]
        rfl
      · cases prepared
  · rename_i other
    cases prepared
    have noComma : decide (source.state ≠ .arrayComma) = true := decide_eq_true other
    rw [noComma]
    exact ⟨[], rfl, rfl⟩

private theorem decode_value {source later : JsonBytes} {data : Data}
    (decoded : source.decode unmarshal syntaxError = .value data later) :
    ∃ gap text, Separates source.first gap ∧ source.bytes = gap ++ (text ++ later.bytes) ∧
      IsItem none text ∧ unmarshal text = .ok data ∧ later.first = false := by
  unfold JsonBytes.decode at decoded
  split at decoded
  · cases decoded
  · cases decoded
  · rename_i bytes prepared
    obtain ⟨gap, separates, split⟩ := prepare_ok prepared
    split at decoded
    · cases decoded
    · split at decoded
      · cases decoded
      · split at decoded
        · cases decoded
        · cases decoded
    · rename_i text rest read
      obtain ⟨parts, item⟩ := isItem_of_readValue read
      split at decoded
      · cases decoded
      · rename_i own converted
        cases decoded
        exact ⟨gap, text, separates, by rw [split, parts], item.of_limit, converted, rfl⟩

private theorem next_row {it later : JsonIter JsonBytes} {row : Row} {offset : Offset}
    (next : jsonNext (bytesDecoder unmarshal syntaxError) it = .row row offset later) :
    ∃ gap text, Separates it.dec.first gap ∧ it.dec.bytes = gap ++ (text ++ later.dec.bytes) ∧
      IsItem none text ∧ unmarshal text = .ok row.data ∧ later.dec.first = false := by
  unfold jsonNext at next
  split at next
  · cases next
  · split at next
    · cases next
    · cases next
    · rename_i fields rest decoded
      cases next
      exact decode_value decoded

private theorem next_done {it : JsonIter JsonBytes} {offset : Offset}
    (next : jsonNext (bytesDecoder unmarshal syntaxError) it = .done offset) :
    Closed it.dec.bytes := by
  unfold jsonNext at next
  split at next
  · rename_i none
    change it.dec.more = false at none
    intro byte head
    unfold JsonBytes.more at none
    split at none
    · rename_i empty
      rw [empty] at head
      cases head
    · rename_i first rest begins
      rw [begins] at head
      cases head
      by_contra other
      rw [not_or] at other
      simp only [bne_iff_ne.mpr other.1, bne_iff_ne.mpr other.2, Bool.and_true] at none
      cases none
  · split at next
    · cases next
    · cases next
    · cases next

theorem take_items {content : JsonBytes} {count : Nat} {it : JsonIter JsonBytes} {rows : List Row}
    (taken : take (jsonConnector (bytesDecoder unmarshal syntaxError) content).step count it =
      (rows, .done)) :
    ∃ items rest, Items none it.dec.first items it.dec.bytes rest ∧ Closed rest ∧
      List.Forall₂ (fun item row => unmarshal item = .ok row.data) items rows := by
  induction count generalizing it rows with
  | zero => cases taken
  | succ count ih =>
      cases next : jsonNext (bytesDecoder unmarshal syntaxError) it with
      | failed offset err =>
          have stepped : (jsonConnector (bytesDecoder unmarshal syntaxError) content).step it =
              .failed err.ingestError := by
            simp only [Connector.step, jsonConnector, next]
          rw [take_failed count stepped] at taken
          cases taken
      | done offset =>
          have stepped : (jsonConnector (bytesDecoder unmarshal syntaxError) content).step it =
              .done := by
            simp only [Connector.step, jsonConnector, next]
          rw [take_done count stepped] at taken
          cases taken
          exact ⟨[], it.dec.bytes, .done, next_done next, .nil⟩
      | row row offset later =>
          have stepped : (jsonConnector (bytesDecoder unmarshal syntaxError) content).step it =
              .row row later := by
            simp only [Connector.step, jsonConnector, next]
          rw [take_row count stepped] at taken
          obtain ⟨others, ended⟩ := Prod.mk.inj taken
          obtain ⟨gap, text, separates, split, item, decoded, comma⟩ := next_row next
          obtain ⟨items, rest, written, closed, delivered⟩ := ih (Prod.ext rfl ended)
          rw [comma] at written
          rw [split, ← others]
          exact ⟨text :: items, rest, .more separates item written, closed,
            .cons decoded delivered⟩

theorem start_array {source : JsonBytes} {it : JsonIter JsonBytes}
    (started : jsonStart (bytesDecoder unmarshal syntaxError) source = .ok it) :
    ∃ lead, Spaces lead ∧ source.bytes = lead ++ 91 :: it.dec.bytes ∧ it.dec.first = true := by
  unfold jsonStart at started
  split at started
  · cases started
  · cases started
  · rename_i symbol rest token
    split at started
    · rename_i bracket
      cases started
      change source.token syntaxError = .delim symbol rest at token
      rw [bracket] at token
      unfold JsonBytes.token at token
      split at token
      · cases token
      · rename_i byte behind begins
        obtain ⟨lead, split, all⟩ := exists_dropWhile (p := JsonText.isSpace) source.bytes
        split at token
        · rename_i same
          cases token
          refine ⟨lead, all, ?_, rfl⟩
          rw [begins, same] at split
          exact split
        split at token
        · cases token
        · split at token
          · cases token
          · cases token
          · cases token
    · cases started

private theorem iterate_items {source : JsonBytes} {count : Nat} {rows : List Row}
    (read : iterate (jsonConnector (bytesDecoder unmarshal syntaxError) source).toConnector count =
      (rows, .done)) :
    ∃ lead body items rest, Spaces lead ∧ source.bytes = lead ++ 91 :: body ∧
      Items none true items body rest ∧ Closed rest ∧
        List.Forall₂ (fun item row => unmarshal item = .ok row.data) items rows := by
  unfold iterate at read
  split at read
  · cases read
  · rename_i it opened
    have started : jsonStart (bytesDecoder unmarshal syntaxError) source = .ok it := by
      change jsonOpen (bytesDecoder unmarshal syntaxError) source {} = .ok it at opened
      unfold jsonOpen at opened
      cases begun : jsonStart (bytesDecoder unmarshal syntaxError) source with
      | error err =>
          rw [begun] at opened
          cases opened
      | ok own =>
          rw [begun] at opened
          cases opened
          rfl
    obtain ⟨lead, spaces, split, first⟩ := start_array started
    obtain ⟨items, rest, written, closed, delivered⟩ := take_items read
    rw [first] at written
    exact ⟨lead, it.dec.bytes, items, rest, spaces, split, written, closed, delivered⟩

/-- Where repeated calls end without an error, the source is one array and every
element of it was delivered exactly when the array is not cut short: a closing
bracket follows its elements, and nothing follows that. -/
theorem done_complete_iff (unmarshal : Utf8.Bytes → Except String Data)
    (syntaxError : Utf8.Bytes → String)
    (source : JsonBytes) (sizes : List Int)
    (ended : callsEnded (ingestCalls
      (jsonConnector (bytesDecoder unmarshal syntaxError) source).toConnector {} sizes) = .done) :
    (∃ items, IsArray none items source.bytes ∧
        List.Forall₂ (fun item row => unmarshal item = .ok row.data) items
          ((ingestCalls (jsonConnector (bytesDecoder unmarshal syntaxError) source).toConnector {}
            sizes).flatMap (fun call => call.1.rows))) ↔
      ¬CutShort none source.bytes := by
  cases sizes with
  | nil => cases ended
  | cons first rest =>
      have pass := (jsonConnector (bytesDecoder unmarshal syntaxError) source).onePass first rest
      rw [pass.rows]
      have stop := pass.ended.symm.trans ended
      cases read : iterate (jsonConnector (bytesDecoder unmarshal syntaxError) source).toConnector
          (rowLimit (first :: rest)) with
      | mk rows ending =>
          rw [read] at stop
          cases ending with
          | cut last => cases stop
          | failed err => cases stop
          | done =>
              obtain ⟨lead, body, items, behind, spaces, split, written, closed, delivered⟩ :=
                iterate_items read
              constructor
              · intro complete
                obtain ⟨others, array, _delivered⟩ := complete
                exact array.not_cutShort
              · intro complete
                rw [split] at complete ⊢
                exact ⟨items, isArray_of_not_cutShort spaces written closed complete, delivered⟩

end Elements

/-! ### One element, with and without the bracket -/

def noFields : Utf8.Bytes → Except String Data := fun _ => .ok []

def anyError : Utf8.Bytes → String := fun _ => "invalid character"

def wholeArray : JsonBytes := { bytes := [91, 123, 125, 93, 10] }

def interrupted : JsonBytes := { bytes := [91, 123, 125] }

def readAll (source : JsonBytes) (sizes : List Int) : List (IngestOutput × Option IngestError) :=
  ingestCalls (jsonConnector (bytesDecoder noFields anyError) source).toConnector {} sizes

theorem emptyObject : IsItem none [123, 125] :=
  ⟨by decide, fun _byte last => by cases last; rfl⟩

theorem spaces_nil : Spaces [] := fun _byte impossible => by cases impossible

theorem one_item (rest : Utf8.Bytes) : Items none true [[123, 125]] ([] ++ ([123, 125] ++ rest)) rest := by
  have gapped : Separates true [] := rfl
  exact .more gapped emptyObject .done

private theorem wholeArray_isArray : IsArray none [[123, 125]] wholeArray.bytes :=
  ⟨[], [123, 125, 93, 10], [], [10], spaces_nil, rfl, one_item [93, 10], spaces_nil,
    fun _byte member => by rw [List.mem_singleton.mp member]; rfl⟩

private theorem interrupted_cutShort : CutShort none interrupted.bytes := by
  refine ⟨[], [123, 125], [[123, 125]], [], spaces_nil, rfl, ?_, ?_, ?_⟩
  · exact one_item []
  · intro byte impossible
    cases impossible
  · intro gap trail _gaps _trails same
    cases gap with
    | nil => cases same
    | cons space gap => cases same

theorem whole_array_complete :
    ∃ items, IsArray none items wholeArray.bytes ∧
      List.Forall₂ (fun item row => noFields item = .ok row.data) items
        ((readAll wholeArray [1, 1]).flatMap (fun call => call.1.rows)) := by
  have ended : callsEnded (readAll wholeArray [1, 1]) = .done := by decide
  exact (done_complete_iff noFields anyError wholeArray [1, 1] ended).mpr
    wholeArray_isArray.not_cutShort

theorem interrupted_looks_done :
    callsEnded (readAll interrupted [500]) = .done ∧
      ¬∃ items, IsArray none items interrupted.bytes := by
  refine ⟨by decide, ?_⟩
  intro complete
  obtain ⟨items, array⟩ := complete
  exact array.not_cutShort interrupted_cutShort

end MigrationPlatform.Connectors
