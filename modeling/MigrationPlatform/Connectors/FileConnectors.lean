/-
The CSV, JSON and XML connectors.

The tokenizers of the standard library are parameters: deterministic functions
of the content that is left. `Open` derives the position of a resumed read by
skipping records, in code other than `Next`; each connector is shown to be a
`FileConnector`, so that skipping and delivering agree.
-/

import MigrationPlatform.Connectors.Ingest

namespace MigrationPlatform.Connectors

open ResumableIteration

section Csv

variable {Content : Type}

inductive CsvRead (Content : Type)
  | record (fields : List String) (rest : Content)
  | eof (rest : Content)
  | failed (message : String)

structure CsvIter (Content : Type) where
  reader : Content
  header : List String := []
  idx : Int := 0

/-- The configured value, `true` unless it is a boolean. -/
def hasHeader (configured : Option Bool) : Bool := configured.getD true

def recordToMap (header record : List String) : Data :=
  record.zipIdx.foldl
    (fun data entry => data.set (header[entry.2]?.getD ("col" ++ toString entry.2)) (.text entry.1))
    []

def csvStart (read : Content → CsvRead Content) (header : Option Bool) (content : Content) :
    Except SourceError (CsvIter Content) :=
  if hasHeader header = true then
    match read content with
    | .eof _ => .error (.other "EOF")
    | .failed message => .error (.other message)
    | .record fields rest => .ok { reader := rest, header := fields }
  else .ok { reader := content }

def csvSkip (read : Content → CsvRead Content) (it : CsvIter Content) :
    Skip (CsvIter Content) SourceError :=
  match read it.reader with
  | .eof rest => .stopped { it with reader := rest }
  | .failed message => .failed (.other message)
  | .record _ rest => .advanced { it with reader := rest, idx := it.idx + 1 }

def csvOpen (read : Content → CsvRead Content) (header : Option Bool) (content : Content)
    (offset : Offset) : Except SourceError (CsvIter Content) :=
  (csvStart read header content).bind (skipMany (csvSkip read) offset.items.toNat)

def csvNext (read : Content → CsvRead Content) (it : CsvIter Content) :
    NextResult (CsvIter Content) :=
  match read it.reader with
  | .eof _ => .done { items := it.idx }
  | .failed message => .failed { items := it.idx } (.other message)
  | .record fields rest =>
      .row { index := it.idx, data := recordToMap it.header fields } { items := it.idx + 1 }
        { it with reader := rest, idx := it.idx + 1 }

theorem csvNext_row {read : Content → CsvRead Content} {it later : CsvIter Content} {row : Row}
    {offset : Offset} (yielded : csvNext read it = .row row offset later) :
    ∃ fields rest, read it.reader = .record fields rest ∧ row.index = it.idx ∧
      offset.items = it.idx + 1 ∧ later = { it with reader := rest, idx := it.idx + 1 } := by
  unfold csvNext at yielded
  cases got : read it.reader with
  | eof rest => simp only [got] at yielded; cases yielded
  | failed message => simp only [got] at yielded; cases yielded
  | record fields rest =>
      simp only [got] at yielded
      cases yielded
      exact ⟨fields, rest, rfl, rfl, rfl, rfl⟩

def csvConnector (read : Content → CsvRead Content) (header : Option Bool) (content : Content) :
    FileConnector (CsvIter Content) where
  openAt := csvOpen read header content
  next := csvNext read
  start := csvStart read header content
  skip := csvSkip read
  idx := CsvIter.idx
  opens _ := rfl
  skips it row offset later yielded := by
    obtain ⟨fields, rest, got, _, _, rfl⟩ := csvNext_row yielded
    unfold csvSkip
    rw [got]
  startIdx it started := by
    unfold csvStart at started
    split at started
    · split at started <;> cases started
      rfl
    · cases started
      rfl
  rowIdx it row offset later yielded := by
    obtain ⟨fields, rest, _, index, items, rfl⟩ := csvNext_row yielded
    exact ⟨index, items, rfl⟩
  doneIdx it offset ended := by
    unfold csvNext at ended
    split at ended <;> cases ended
    rfl
  alwaysReady it offset err broke := by
    unfold csvNext at broke
    split at broke <;> cases broke
    nofun

end Csv

section Json

variable {Content : Type}

inductive JsonToken (Content : Type)
  | delim (symbol : Char) (rest : Content)
  | literal
  | failed (message : String)

inductive JsonDecode (Content : Type)
  | value (fields : Data) (rest : Content)
  | eof (rest : Content)
  | failed (message : String)

/-- A `json.Decoder`. `more` only looks ahead over white space, which `decode`
skips as well. -/
structure JsonDecoder (Content : Type) where
  token : Content → JsonToken Content
  more : Content → Bool
  decode : Content → JsonDecode Content

structure JsonIter (Content : Type) where
  dec : Content
  idx : Int := 0

def jsonStart (decoder : JsonDecoder Content) (content : Content) :
    Except SourceError (JsonIter Content) :=
  match decoder.token content with
  | .failed message => .error (.other message)
  | .literal => .error (.other "json source must be a top-level array")
  | .delim symbol rest =>
      if symbol = '[' then .ok { dec := rest }
      else .error (.other "json source must be a top-level array")

/-- One turn of the loop of `Open`. It decodes without asking for more. -/
def jsonSkip (decoder : JsonDecoder Content) (it : JsonIter Content) :
    Skip (JsonIter Content) SourceError :=
  match decoder.decode it.dec with
  | .eof rest => .stopped { it with dec := rest }
  | .failed message => .failed (.other message)
  | .value _ rest => .advanced { dec := rest, idx := it.idx + 1 }

def jsonOpen (decoder : JsonDecoder Content) (content : Content) (offset : Offset) :
    Except SourceError (JsonIter Content) :=
  (jsonStart decoder content).bind (skipMany (jsonSkip decoder) offset.items.toNat)

def jsonNext (decoder : JsonDecoder Content) (it : JsonIter Content) :
    NextResult (JsonIter Content) :=
  if decoder.more it.dec = false then .done { items := it.idx }
  else
    match decoder.decode it.dec with
    | .eof _ => .failed { items := it.idx } (.other "EOF")
    | .failed message => .failed { items := it.idx } (.other message)
    | .value fields rest =>
        .row { index := it.idx, data := fields } { items := it.idx + 1 }
          { dec := rest, idx := it.idx + 1 }

theorem jsonNext_row {decoder : JsonDecoder Content} {it later : JsonIter Content} {row : Row}
    {offset : Offset} (yielded : jsonNext decoder it = .row row offset later) :
    ∃ fields rest, decoder.decode it.dec = .value fields rest ∧ row.index = it.idx ∧
      offset.items = it.idx + 1 ∧ later = { dec := rest, idx := it.idx + 1 } := by
  unfold jsonNext at yielded
  split at yielded
  · cases yielded
  · cases got : decoder.decode it.dec with
    | eof rest => simp only [got] at yielded; cases yielded
    | failed message => simp only [got] at yielded; cases yielded
    | value fields rest =>
        simp only [got] at yielded
        cases yielded
        exact ⟨fields, rest, rfl, rfl, rfl, rfl⟩

def jsonConnector (decoder : JsonDecoder Content) (content : Content) :
    FileConnector (JsonIter Content) where
  openAt := jsonOpen decoder content
  next := jsonNext decoder
  start := jsonStart decoder content
  skip := jsonSkip decoder
  idx := JsonIter.idx
  opens _ := rfl
  skips it row offset later yielded := by
    obtain ⟨fields, rest, got, _, _, rfl⟩ := jsonNext_row yielded
    unfold jsonSkip
    rw [got]
  startIdx it started := by
    unfold jsonStart at started
    split at started
    · cases started
    · cases started
    · split at started <;> cases started
      rfl
  rowIdx it row offset later yielded := by
    obtain ⟨fields, rest, _, index, items, rfl⟩ := jsonNext_row yielded
    exact ⟨index, items, rfl⟩
  doneIdx it offset ended := by
    unfold jsonNext at ended
    split at ended
    · cases ended
      rfl
    · split at ended <;> cases ended
  alwaysReady it offset err broke := by
    unfold jsonNext at broke
    split at broke
    · cases broke
    · split at broke <;> cases broke <;> nofun

end Json

/-- Tokens of an `xml.Decoder`, with local names. Comments, directives and
processing instructions are `other`. -/
inductive XmlToken
  | startElement (name : String) (attrs : List (String × String))
  | endElement
  | charData (text : String)
  | other

def isSpace (c : Char) : Bool := c == ' ' || c == '\n' || c == '\t' || c == '\r'

def trim (text : String) : String :=
  String.ofList ((text.toList.dropWhile isSpace).reverse.dropWhile isSpace).reverse

def simplify (fields : Data) : Value :=
  match fields with
  | [(key, value)] => if key = "$text" then value else .object fields
  | _ => .object fields

def addMulti (fields : Data) (key : String) (value : Value) : Data :=
  match fields.lookup key with
  | some (.list items) => fields.set key (.list (items ++ [value]))
  | some existing => fields.set key (.list [existing, value])
  | none => fields.set key value

def attributeFields (attrs : List (String × String)) : Data :=
  attrs.foldl (fun fields attr => fields.set ("@" ++ attr.1) (.text attr.2)) []

/-- The loop of `decodeElement` behind a start element, with the tokens behind
its end element; `none` where the tokens run out. -/
def decodeElement : (tokens : List XmlToken) → Data →
    Option (Data × { rest : List XmlToken // rest.length < tokens.length })
  | [], _ => none
  | .endElement :: rest, out => some (out, ⟨rest, Nat.lt_succ_self _⟩)
  | .charData text :: rest, out =>
      (decodeElement rest (if trim text ≠ "" then out.set "$text" (.text text) else out)).map
        (fun decoded => (decoded.1, ⟨decoded.2.1, Nat.lt_succ_of_lt decoded.2.2⟩))
  | .other :: rest, out =>
      (decodeElement rest out).map
        (fun decoded => (decoded.1, ⟨decoded.2.1, Nat.lt_succ_of_lt decoded.2.2⟩))
  | .startElement name attrs :: rest, out =>
      match decodeElement rest (attributeFields attrs) with
      | none => none
      | some (child, ⟨after, shorter⟩) =>
          (decodeElement after (addMulti out name (simplify child))).map
            (fun decoded =>
              (decoded.1, ⟨decoded.2.1, Nat.lt_succ_of_lt (Nat.lt_trans decoded.2.2 shorter)⟩))
termination_by tokens => tokens.length
decreasing_by all_goals simp_wf <;> omega

/-- The tokens of a file, and the error behind the last of them unless it is
the end of the file. -/
structure XmlContent where
  tokens : List XmlToken
  err : Option String := none

structure XmlIter where
  dec : XmlContent
  tag : String
  idx : Int := 0

def xmlNextFrom (it : XmlIter) : List XmlToken → NextResult XmlIter
  | [] =>
      match it.dec.err with
      | none => .done { items := it.idx }
      | some message => .failed { items := it.idx } (.other message)
  | .startElement name attrs :: rest =>
      if name ≠ it.tag then xmlNextFrom it rest
      else
        match decodeElement rest (attributeFields attrs) with
        | none => .failed { items := it.idx } (.other (it.dec.err.getD "EOF"))
        | some (fields, after) =>
            .row { index := it.idx, data := fields } { items := it.idx + 1 }
              { it with dec := { it.dec with tokens := after }, idx := it.idx + 1 }
  | _ :: rest => xmlNextFrom it rest

def xmlNext (it : XmlIter) : NextResult XmlIter := xmlNextFrom it it.dec.tokens

def recordTag (configured : String) : String := if configured = "" then "record" else configured

/-- One turn of the loop of `Open`, which calls `Next` and goes on at the end
of the file. -/
def xmlSkip (it : XmlIter) : Skip XmlIter SourceError :=
  match xmlNext it with
  | .row _ _ later => .advanced later
  | .done _ => .advanced { it with dec := { it.dec with tokens := [] } }
  | .failed _ err => .failed err

def xmlOpen (tag : String) (content : XmlContent) (offset : Offset) : Except SourceError XmlIter :=
  skipMany xmlSkip offset.items.toNat { dec := content, tag := recordTag tag }

def Positioned (it : XmlIter) : NextResult XmlIter → Prop
  | .row row offset later =>
      row.index = it.idx ∧ offset.items = it.idx + 1 ∧ later.idx = it.idx + 1
  | .done offset => offset.items = it.idx
  | .failed _ err => err ≠ .notReady

private theorem xmlNextFrom_positioned (it : XmlIter) (tokens : List XmlToken) :
    Positioned it (xmlNextFrom it tokens) := by
  induction tokens with
  | nil =>
      unfold xmlNextFrom
      cases it.dec.err with
      | none => rfl
      | some message => nofun
  | cons token rest ih =>
      cases token with
      | endElement => exact ih
      | charData text => exact ih
      | other => exact ih
      | startElement name attrs =>
          unfold xmlNextFrom
          split
          · exact ih
          · split
            · nofun
            · exact ⟨rfl, rfl, rfl⟩

theorem xmlNext_positioned {it : XmlIter} {result : NextResult XmlIter}
    (returned : xmlNext it = result) : Positioned it result := by
  rw [← returned]
  exact xmlNextFrom_positioned it it.dec.tokens

def xmlConnector (tag : String) (content : XmlContent) : FileConnector XmlIter where
  openAt := xmlOpen tag content
  next := xmlNext
  start := .ok { dec := content, tag := recordTag tag }
  skip := xmlSkip
  idx := XmlIter.idx
  opens _ := rfl
  skips it row offset later yielded := by
    unfold xmlSkip
    rw [yielded]
  startIdx it started := by
    cases started
    rfl
  rowIdx it row offset later yielded := xmlNext_positioned yielded
  doneIdx it offset ended := xmlNext_positioned ended
  alwaysReady it offset err broke := xmlNext_positioned broke

/-! ### Resuming a file -/

/-- Calling `Ingest` again and again at the offset it returned is one pass over
the file, for each kind of file. -/
theorem file_resume_is_one_pass (first : Int) (rest : List Int) :
    (∀ (Content : Type) (read : Content → CsvRead Content) (header : Option Bool)
        (content : Content),
      OnePass (csvConnector read header content).toConnector (first :: rest)) ∧
    (∀ (Content : Type) (decoder : JsonDecoder Content) (content : Content),
      OnePass (jsonConnector decoder content).toConnector (first :: rest)) ∧
    (∀ (tag : String) (content : XmlContent),
      OnePass (xmlConnector tag content).toConnector (first :: rest)) := by
  refine ⟨?_, ?_, ?_⟩
  · intro Content read header content
    exact (csvConnector read header content).onePass first rest
  · intro Content decoder content
    exact (jsonConnector decoder content).onePass first rest
  · intro tag content
    exact (xmlConnector tag content).onePass first rest

def records : List (List String) → CsvRead (List (List String))
  | [] => .eof []
  | fields :: rest => .record fields rest

example :
    (ingestCalls (csvConnector records none [["id"], ["a"], ["b"], ["c"]]).toConnector {}
      [2, 1, 2]).map (fun call => (call.1.rows.map Row.index, call.1.newOffset.items, call.1.done)) =
    [([0, 1], 2, false), ([2], 3, false), ([], 3, true)] := by
  decide

end MigrationPlatform.Connectors
