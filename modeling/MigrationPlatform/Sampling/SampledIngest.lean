/-
What the sampler accepts beside what the job reads of the same upload.

A JSON file is read alike when it is one array of objects that no byte order
mark precedes; lines of JSON are accepted by the sampler only. A CSV file is
read alike when the strict reader finds a table with commas in it, and its first
rows fill the columns that the sampler found with its own delimiter.
-/

import MigrationPlatform.Foundation.Decimals
import MigrationPlatform.Sampling.FileSampler

namespace MigrationPlatform.Sampling

open MigrationPlatform.Connectors
open DelimitedText
open Utf8 (Bytes)
open ResumableIteration (take take_row take_done take_failed take_eq_of_ended)

theorem formatFromFilename_of_sniff {filename : String} {format : SniffedFormat}
    (sniffed : sniffFormatFromKey filename = some format) :
    formatFromFilename filename =
      match format with
      | .csv => .csv
      | .json => .json
      | .ndjson => .json
      | .xml => .xml := by
  unfold sniffFormatFromKey at sniffed
  unfold formatFromFilename
  dsimp only at sniffed ⊢
  split at sniffed
  · rename_i csv
    cases sniffed
    rw [if_pos csv]
  · rename_i notCsv
    rw [if_neg notCsv]
    split at sniffed
    · rename_i json
      cases sniffed
      rw [if_pos (.inl json)]
    · rename_i notJson
      split at sniffed
      · rename_i lines
        cases sniffed
        rw [if_pos (.inr lines)]
      · rename_i notLines
        rw [if_neg (fun either => either.elim notJson notLines)]
        split at sniffed
        · rename_i xml
          cases sniffed
          rw [if_pos xml]
        · cases sniffed

def isJsonWhitespace (b : UInt8) : Bool := b == 0x20 || b == 0x09 || b == 0x0A || b == 0x0D

def firstJsonByte (bytes : Bytes) : Option UInt8 := bytes.find? (fun b => !isJsonWhitespace b)

def IsMap : Value → Prop
  | .object _ => True
  | .null => True
  | _ => False

/-- Elements of an array as a decoder finds them one after the other. A null
leaves the map empty; what is not a map is refused. -/
inductive Delivers (decoder : JsonDecoder Bytes) : Bytes → List Value → Prop
  | finished {content : Bytes} (more : decoder.more content = false) : Delivers decoder content []
  | map {content rest : Bytes} {value : Value} {decoded : Data} {values : List Value}
      (more : decoder.more content = true) (decodes : decoder.decode content = .value decoded rest)
      (isMap : IsMap value) (same : SameColumns (mapFields value) decoded)
      (later : Delivers decoder rest values) : Delivers decoder content (value :: values)
  | other {content : Bytes} {value : Value} {values : List Value} {message : String}
      (more : decoder.more content = true) (decodes : decoder.decode content = .failed message)
      (notMap : ¬ IsMap value) : Delivers decoder content (value :: values)

/-- What `serde_json` and `encoding/json` promise: an array begins with a
bracket behind white space of JSON, and an array that the one has parsed the
other delivers element by element, whatever stands behind it. -/
structure Agreement (parsers : Parsers) (decoder : JsonDecoder Bytes) : Prop where
  opens : ∀ bytes rest, decoder.token bytes = .delim '[' rest → firstJsonByte bytes = some 91
  delivers : ∀ bytes values, parsers.fromSlice bytes = .ok values → ∀ rest, ∃ elements,
    decoder.token (bytes ++ rest) = .delim '[' elements ∧ Delivers decoder elements values
  blank : ∀ line : Bytes, (∀ b ∈ line, isAsciiWhitespace b = true) →
    Batch.trimSpace ((parsers.fromUtf8 line).getD "") = ""

section Json

variable {decoder : JsonDecoder Bytes}

private theorem jsonStep_done {content source : Bytes} {index : Int}
    (more : decoder.more content = false) :
    (jsonConnector decoder source).toConnector.step { dec := content, idx := index } = .done := by
  have next : (jsonConnector decoder source).next { dec := content, idx := index } =
      .done { items := index } := by
    change jsonNext decoder _ = _
    simp only [jsonNext, more, if_true]
  unfold Connector.step
  rw [next]

theorem jsonStep_row {content rest source : Bytes} {index : Int} {decoded : Data}
    (more : decoder.more content = true) (decodes : decoder.decode content = .value decoded rest) :
    (jsonConnector decoder source).toConnector.step { dec := content, idx := index } =
      .row { index := index, data := decoded } { dec := rest, idx := index + 1 } := by
  have next : (jsonConnector decoder source).next { dec := content, idx := index } =
      .row { index := index, data := decoded } { items := index + 1 }
        { dec := rest, idx := index + 1 } := by
    change jsonNext decoder _ = _
    simp only [jsonNext, more, decodes, Bool.true_eq_false, if_false]
  unfold Connector.step
  rw [next]

private theorem jsonStep_failed {content source : Bytes} {index : Int} {message : String}
    (more : decoder.more content = true) (decodes : decoder.decode content = .failed message) :
    (jsonConnector decoder source).toConnector.step { dec := content, idx := index } =
      .failed (SourceError.other message).ingestError := by
  have next : (jsonConnector decoder source).next { dec := content, idx := index } =
      .failed { items := index } (.other message) := by
    change jsonNext decoder _ = _
    simp only [jsonNext, more, decodes, Bool.true_eq_false, if_false]
  unfold Connector.step
  rw [next]

private theorem take_maps {content source : Bytes} {values : List Value}
    (delivered : Delivers decoder content values) (maps : ∀ value ∈ values, IsMap value)
    (index : Int) :
    ∃ rows, take (jsonConnector decoder source).toConnector.step (values.length + 1)
        { dec := content, idx := index } = (rows, .done) ∧
      List.Forall₂ (fun value row => SameColumns (mapFields value) (Row.data row)) values rows := by
  induction delivered generalizing index with
  | finished more => exact ⟨[], take_done _ (jsonStep_done more), .nil⟩
  | @map _ rest value decoded values more decodes _ same later ih =>
      obtain ⟨rows, read, alike⟩ := ih (fun other member => maps other (.tail _ member)) (index + 1)
      refine ⟨{ index := index, data := decoded } :: rows, ?_, .cons same alike⟩
      rw [List.length_cons, take_row _ (jsonStep_row more decodes), read]
  | other _ _ notMap => exact absurd (maps _ List.mem_cons_self) notMap

private theorem take_not_maps {content source : Bytes} {values : List Value}
    (delivered : Delivers decoder content values) (notMaps : ¬ ∀ value ∈ values, IsMap value)
    (index : Int) :
    ∃ rows err, take (jsonConnector decoder source).toConnector.step (values.length + 1)
      { dec := content, idx := index } = (rows, .failed err) := by
  induction delivered generalizing index with
  | finished more => exact absurd (fun value absent => by cases absent) notMaps
  | @map _ rest value decoded values more decodes isMap _ later ih =>
      have others : ¬ ∀ value ∈ values, IsMap value := by
        intro all
        exact notMaps (List.forall_mem_cons.mpr ⟨isMap, all⟩)
      obtain ⟨rows, err, read⟩ := ih others (index + 1)
      refine ⟨{ index := index, data := decoded } :: rows, err, ?_⟩
      rw [List.length_cons, take_row _ (jsonStep_row more decodes), read]
  | other more decodes _ => exact ⟨[], _, take_failed _ (jsonStep_failed more decodes)⟩

theorem iterate_json {source elements : Bytes} (opened : decoder.token source = .delim '[' elements)
    (count : Nat) :
    iterate (jsonConnector decoder source).toConnector count =
      take (jsonConnector decoder source).toConnector.step count { dec := elements } := by
  have opens : (jsonConnector decoder source).openAt {} = .ok { dec := elements } := by
    change (jsonStart decoder source).bind _ = _
    simp only [jsonStart, opened, if_true]
    rfl
  unfold iterate
  rw [opens]

private theorem token_of_iterate {source : Bytes} {count : Nat} {rows : List Row}
    (read : iterate (jsonConnector decoder source).toConnector count = (rows, .done)) :
    ∃ elements, decoder.token source = .delim '[' elements := by
  have opens : (jsonConnector decoder source).openAt {} =
      (jsonStart decoder source).bind (ResumableIteration.skipMany (jsonSkip decoder) 0) := rfl
  unfold iterate at read
  rw [opens] at read
  cases started : jsonStart decoder source with
  | error err =>
      rw [started] at read
      cases read
  | ok it =>
      unfold jsonStart at started
      split at started
      · cases started
      · cases started
      · rename_i symbol rest token
        split at started
        · rename_i bracket
          rw [bracket] at token
          exact ⟨rest, token⟩
        · cases started

theorem reads_json_iff {source elements : Bytes} {values : List Value} {sampled : List Data}
    {cap : Nat} (opened : decoder.token source = .delim '[' elements)
    (delivered : Delivers decoder elements values)
    (shown : values.take cap = sampled.map Value.object) :
    ReadsAlike (jsonConnector decoder source).toConnector sampled ↔
      ∀ value ∈ values, IsMap value := by
  constructor
  · rintro ⟨count, rows, read, _⟩
    apply Classical.byContradiction
    intro notMaps
    obtain ⟨others, err, failed⟩ := @take_not_maps decoder elements source values delivered notMaps 0
    rw [iterate_json opened] at read
    obtain ⟨_, impossible⟩ := take_eq_of_ended failed (fun _ same => by cases same) read
      (fun _ same => by cases same)
    cases impossible
  · intro maps
    obtain ⟨rows, read, alike⟩ := @take_maps decoder elements source values delivered maps 0
    refine ⟨values.length + 1, rows, (iterate_json opened _).trans read, ?_⟩
    have length : sampled.length ≤ values.length := by
      have lengths := congrArg List.length shown
      rw [List.length_take, List.length_map] at lengths
      omega
    have start : values.take sampled.length = sampled.map Value.object := by
      have lengths := congrArg List.length shown
      rw [List.length_take, List.length_map] at lengths
      rw [← shown, ← lengths, List.take_eq_take_iff]
      omega
    have first := List.forall₂_take sampled.length alike
    rw [start, List.forall₂_map_left_iff] at first
    rw [← List.map_take, List.forall₂_map_right_iff]
    exact first

end Json

private theorem objectRows_ok {values : List Value} {rows : List Data}
    (read : objectRows values = .ok rows) :
    values = rows.map Value.object := by
  induction values generalizing rows with
  | nil =>
      cases read
      rfl
  | cons value rest ih =>
      cases value with
      | object fields =>
          simp only [objectRows] at read
          cases later : objectRows rest with
          | error problem =>
              rw [later] at read
              cases read
          | ok more =>
              rw [later] at read
              cases read
              rw [ih later]
              rfl
      | null => cases read
      | bool flag => cases read
      | number value => cases read
      | text value => cases read
      | list items => cases read

section Json

variable {parsers : Parsers} {decoder : JsonDecoder Bytes} {bytes : Bytes} {cap : Nat}
variable {sample : Sample}

private theorem parseNdjson_blank (agreement : Agreement parsers decoder)
    (blank : ∀ b ∈ bytes, isAsciiWhitespace b = true) : parseNdjson parsers bytes = [] := by
  unfold parseNdjson
  rw [List.filterMap_eq_nil_iff]
  intro line member
  have trimmed := agreement.blank line
    (fun b inside => blank b (Splitting.mem_of_mem_splitOn bytes line member b inside))
  dsimp only
  rw [if_pos trimmed]

private theorem ascii_of_json {b : UInt8} (space : isJsonWhitespace b = true) :
    isAsciiWhitespace b = true := by
  unfold isJsonWhitespace at space
  unfold isAsciiWhitespace
  simp only [Bool.or_eq_true] at space ⊢
  tauto

theorem find_bracket (opens : firstJsonByte bytes = some 91) (length : Nat) :
    (bytes.take length).find? (fun b => !isAsciiWhitespace b) = some 91 ∨
      ∀ b ∈ bytes.take length, isAsciiWhitespace b = true := by
  induction bytes generalizing length with
  | nil => cases opens
  | cons b rest ih =>
      cases length with
      | zero => exact .inr (fun _ absent => by cases absent)
      | succ length =>
          unfold firstJsonByte at opens
          rw [List.find?_cons] at opens
          rw [List.take_succ_cons]
          cases space : isJsonWhitespace b with
          | true =>
              rw [space] at opens
              have ascii := ascii_of_json space
              rcases ih opens length with found | blank
              · left
                rw [List.find?_cons, ascii]
                exact found
              · right
                exact List.forall_mem_cons.mpr ⟨ascii, blank⟩
          | false =>
              rw [space] at opens
              cases opens
              exact .inl rfl

private theorem stripBom_of_bracket (opens : firstJsonByte bytes = some 91) (length : Nat) :
    stripBom (bytes.take length) = bytes.take length := by
  unfold stripBom
  rw [if_neg]
  intro marked
  cases bytes with
  | nil => cases opens
  | cons b rest =>
      cases length with
      | zero => cases marked
      | succ length =>
          rw [List.take_succ_cons, List.isPrefixOf_cons_cons, Bool.and_eq_true] at marked
          rw [← eq_of_beq marked.1] at opens
          cases opens

theorem sampleJson_array (agreement : Agreement parsers decoder)
    (opens : firstJsonByte bytes = some 91)
    (sampled : sampleJson parsers (bytes.take byteCap) cap = .ok sample) :
    ∃ values, parsers.fromSlice (bytes.take byteCap) = .ok values ∧
      values.take cap = sample.rows.map Value.object := by
  unfold sampleJson jsonRecords at sampled
  rw [stripBom_of_bracket opens] at sampled
  split at sampled
  · cases sampled
  · rcases find_bracket opens byteCap with found | blank
    · simp only [found, Option.getD_some, if_true] at sampled
      cases parsed : parsers.fromSlice (bytes.take byteCap) with
      | error problem =>
          simp only [parsed] at sampled
          cases sampled
      | ok values =>
          refine ⟨values, rfl, ?_⟩
          simp only [parsed] at sampled
          cases values with
          | nil => cases sampled
          | cons value rest =>
              dsimp only at sampled
              cases rows : objectRows ((value :: rest).take cap) with
              | error problem =>
                  rw [rows] at sampled
                  cases sampled
              | ok shown =>
                  rw [rows] at sampled
                  cases sampled
                  exact objectRows_ok rows
    · have none_found : (bytes.take byteCap).find? (fun b => !isAsciiWhitespace b) = none := by
        rw [List.find?_eq_none]
        intro b member
        rw [blank b member]
        exact Bool.false_ne_true
      simp only [none_found, Option.getD_none, parseNdjson_blank agreement blank] at sampled
      cases sampled

/-- One array of objects and nulls, with nothing but white space before it. -/
def JsonAlike (parsers : Parsers) (bytes : Bytes) : Prop :=
  firstJsonByte bytes = some 91 ∧
    ∀ values, parsers.fromSlice (bytes.take byteCap) = .ok values → ∀ value ∈ values, IsMap value

theorem json_reads_alike_iff (agreement : Agreement parsers decoder)
    (sampled : sampleJson parsers (bytes.take byteCap) cap = .ok sample) :
    ReadsAlike (jsonConnector decoder bytes).toConnector sample.rows ↔ JsonAlike parsers bytes := by
  have arrays : firstJsonByte bytes = some 91 → ∃ values elements,
      parsers.fromSlice (bytes.take byteCap) = .ok values ∧
        decoder.token bytes = .delim '[' elements ∧ Delivers decoder elements values ∧
        values.take cap = sample.rows.map Value.object := by
    intro opens
    obtain ⟨values, parsed, shown⟩ := sampleJson_array agreement opens sampled
    obtain ⟨elements, opened, delivered⟩ :=
      agreement.delivers _ values parsed (bytes.drop byteCap)
    rw [List.take_append_drop] at opened
    exact ⟨values, elements, parsed, opened, delivered, shown⟩
  constructor
  · rintro ⟨count, rows, read, alike⟩
    obtain ⟨opening, token⟩ := token_of_iterate read
    have opens := agreement.opens bytes opening token
    obtain ⟨values, elements, parsed, opened, delivered, shown⟩ := arrays opens
    refine ⟨opens, ?_⟩
    intro others same
    cases parsed.symm.trans same
    exact (reads_json_iff opened delivered shown).mp ⟨count, rows, read, alike⟩
  · rintro ⟨opens, maps⟩
    obtain ⟨values, elements, parsed, opened, delivered, shown⟩ := arrays opens
    exact (reads_json_iff opened delivered shown).mpr (maps values parsed)

end Json

/-! ### Records of the job -/

section Csv

variable {source : CsvContent} {header : List String}

private theorem csvStep_row (record : List String) (rest : List (List String)) (err : Option String)
    (index : Int) :
    (csvConnector CsvContent.read (some true) source).toConnector.step
        { reader := { records := record :: rest, err := err }, header := header, idx := index } =
      .row { index := index, data := recordToMap header record }
        { reader := { records := rest, err := err }, header := header, idx := index + 1 } := rfl

def csvEnding : Option String → ResumableIteration.Ending (CsvIter CsvContent) IngestError
  | none => .done
  | some message => .failed (SourceError.other message).ingestError

theorem take_csv (records : List (List String)) (err : Option String) (index : Int) :
    ∃ rows, rows.map Row.data = records.map (recordToMap header) ∧
      take (csvConnector CsvContent.read (some true) source).toConnector.step (records.length + 1)
        { reader := { records := records, err := err }, header := header, idx := index } =
          (rows, csvEnding err) := by
  induction records generalizing index with
  | nil =>
      refine ⟨[], rfl, ?_⟩
      cases err with
      | none => rfl
      | some message => rfl
  | cons record rest ih =>
      obtain ⟨rows, data, read⟩ := ih (index + 1)
      refine ⟨{ index := index, data := recordToMap header record } :: rows, ?_, ?_⟩
      · rw [List.map_cons, List.map_cons, data]
      · rw [List.length_cons, take_row _ (csvStep_row record rest err index), read]

/-- The job reads a CSV file alike when the reader finds no error in it, the
first record is there, and the others name the columns of the sample. -/
theorem reads_csv_iff (content : CsvContent) (sampled : List Data) :
    ReadsAlike (csvConnector CsvContent.read (some true) content).toConnector sampled ↔
      content.err = none ∧ ∃ header records, content.records = header :: records ∧
        List.Forall₂ SameColumns sampled
          ((records.map (recordToMap header)).take sampled.length) := by
  obtain ⟨records, err⟩ := content
  cases records with
  | nil =>
      constructor
      · rintro ⟨count, rows, read, _⟩
        cases err with
        | none => cases read
        | some message => cases read
      · rintro ⟨_, header, records, impossible, _⟩
        cases impossible
  | cons first rest =>
      obtain ⟨rows, data, read⟩ :=
        @take_csv { records := first :: rest, err := err } first rest err 0
      constructor
      · rintro ⟨count, others, iterated, alike⟩
        have ended : ∀ last, csvEnding err ≠ .cut last := by
          intro last same
          cases err with
          | none => cases same
          | some message => cases same
        obtain ⟨sameRows, ending⟩ := take_eq_of_ended read ended iterated
          (fun _ same => by cases same)
        cases err with
        | some message => cases ending
        | none =>
            refine ⟨rfl, first, rest, rfl, ?_⟩
            rw [sameRows, data] at alike
            exact alike
      · rintro ⟨fine, header, records, shape, alike⟩
        cases fine
        cases shape
        refine ⟨rest.length + 1, rows, read, ?_⟩
        rw [data]
        exact alike

end Csv

def columnName (header : List Bytes) (index : Nat) : String :=
  (header[index]?.map bytesText).getD ("col" ++ toString index)

/-- As many columns as a record of `width` cells has in the job are those of the sample. -/
def FillsColumns (columns header : List Bytes) (width : Nat) : Prop :=
  ∀ name, name ∈ columns.map bytesText ↔ ∃ index < width, name = columnName header index

theorem fillsColumns_length (header : List Bytes) :
    FillsColumns header header header.length := by
  intro name
  rw [List.mem_map]
  constructor
  · rintro ⟨cell, member, same⟩
    obtain ⟨index, within, found⟩ := List.getElem_of_mem member
    refine ⟨index, within, ?_⟩
    unfold columnName
    rw [List.getElem?_eq_getElem within, found]
    exact same.symm
  · rintro ⟨index, within, same⟩
    refine ⟨header[index], List.getElem_mem within, ?_⟩
    unfold columnName at same
    rw [List.getElem?_eq_getElem within] at same
    exact same.symm

theorem hasColumn_nil (name : String) : ¬ HasColumn [] name := by
  intro present
  cases present

private theorem hasColumn_sampleCsvRow (header record : List Bytes) (name : String) :
    HasColumn (sampleCsvRow header record) name ↔ name ∈ header.map bytesText := by
  unfold sampleCsvRow
  rw [hasColumn_foldl (fun entry : Bytes × Nat => bytesText entry.1)
    (fun entry => sampleCell record entry.2), or_iff_left (hasColumn_nil name), List.mem_map]
  constructor
  · rintro ⟨⟨cell, index⟩, member, same⟩
    exact ⟨cell, List.fst_mem_of_mem_zipIdx member, same.symm⟩
  · rintro ⟨cell, member, same⟩
    obtain ⟨index, within, found⟩ := List.getElem_of_mem member
    refine ⟨(cell, index), ?_, same.symm⟩
    rw [List.mem_zipIdx_iff_getElem?, ← found]
    exact List.getElem?_eq_getElem within

private theorem hasColumn_recordToMap (header record : List Bytes) (name : String) :
    HasColumn (recordToMap (header.map bytesText) (record.map bytesText)) name ↔
      ∃ index < record.length, name = columnName header index := by
  have key : ∀ index, (header.map bytesText)[index]?.getD ("col" ++ toString index) =
      columnName header index := by
    intro index
    rw [List.getElem?_map]
    rfl
  unfold recordToMap
  rw [hasColumn_foldl (fun entry : String × Nat =>
      (header.map bytesText)[entry.2]?.getD ("col" ++ toString entry.2))
    (fun entry => .text entry.1), or_iff_left (hasColumn_nil name)]
  constructor
  · rintro ⟨⟨cell, index⟩, member, same⟩
    rw [List.mem_zipIdx_iff_getElem?] at member
    obtain ⟨within, _⟩ := List.getElem?_eq_some_iff.mp member
    rw [List.length_map] at within
    exact ⟨index, within, same.trans (key index)⟩
  · rintro ⟨index, within, same⟩
    refine ⟨(bytesText record[index], index), ?_, same.trans (key index).symm⟩
    rw [List.mem_zipIdx_iff_getElem?, List.getElem?_map, List.getElem?_eq_getElem within]
    rfl

private theorem sameColumns_iff_fills (columns sampled header read : List Bytes) :
    SameColumns (sampleCsvRow columns sampled)
        (recordToMap (header.map bytesText) (read.map bytesText)) ↔
      FillsColumns columns header read.length := by
  unfold SameColumns FillsColumns
  apply forall_congr'
  intro name
  rw [hasColumn_sampleCsvRow, hasColumn_recordToMap]

/-- What the sampler's reader finds in the part of the file that it is given. -/
def sampledRecords (bytes : Bytes) : List (List Bytes) :=
  crateRecords (detectDelimiter (bytes.take byteCap)) (bytes.take byteCap)

def sampledHeader (bytes : Bytes) : List Bytes := (sampledRecords bytes).headD []

def shownCount (bytes : Bytes) (cap : Nat) : Nat := min cap ((sampledRecords bytes).length - 1)

/-- What a CSV file must be like. With its line ends made alike it is a table, written with
commas, line feeds and proper quotes, and its first records fill the columns of the sample. -/
structure CsvAlike (bytes : Bytes) (cap : Nat) (table : Table 44) (header : List Bytes)
    (rows : List (List Bytes)) : Prop where
  written : table.render = normalizeLines bytes
  feeds : table.Allowed (goRules 44)
  contents : table.contents = header :: rows
  enough : shownCount bytes cap ≤ rows.length
  fills : ∀ row ∈ rows.take (shownCount bytes cap),
    FillsColumns (sampledHeader bytes) header row.length

theorem properCrate {delimiter : UInt8} (candidate : delimiter ∈ candidates) :
    (crateRules delimiter).Proper := by
  unfold candidates at candidate
  simp only [List.mem_cons, List.not_mem_nil, or_false] at candidate
  constructor
  · intro same
    change delimiter = quote at same
    rw [same] at candidate
    revert candidate
    decide
  · intro same
    change delimiter = lineFeed at same
    rw [same] at candidate
    revert candidate
    decide
  · intro same
    change delimiter = carriageReturn at same
    rw [same] at candidate
    revert candidate
    decide

theorem properGo : (goRules 44).Proper := by
  constructor
  · decide
  · decide
  · decide

variable {bytes : Bytes}

theorem stripBom_take (unmarked : ¬ [0xEF, 0xBB, 0xBF] <+: bytes) (length : Nat) :
    stripBom (bytes.take length) = bytes.take length := by
  unfold stripBom
  rw [if_neg]
  intro marked
  exact unmarked ((List.isPrefixOf_iff_prefix.mp marked).trans (List.take_prefix length bytes))

section Csv

variable {fromUtf8 : Bytes → Option String} {bytes : Bytes} {cap : Nat} {sample : Sample}

private theorem sampleCsvRows_ok {header : List Bytes} {records : List (List Bytes)} {read : Nat}
    {rows : List Data} (sampled : sampleCsvRows fromUtf8 header read records = .ok rows) :
    rows = records.map (sampleCsvRow header) := by
  induction records generalizing read rows with
  | nil =>
      cases sampled
      rfl
  | cons record rest ih =>
      unfold sampleCsvRows at sampled
      split at sampled
      · cases sampled
      · cases later : sampleCsvRows fromUtf8 header (read + 1) rest with
        | error problem =>
            rw [later] at sampled
            cases sampled
        | ok more =>
            rw [later] at sampled
            cases sampled
            rw [ih later]
            rfl

theorem sampleCsv_ok (sampled : sampleCsv fromUtf8 (bytes.take byteCap) cap = .ok sample) :
    ∃ records, sampledRecords bytes = sampledHeader bytes :: records ∧
      sample.rows = (records.take cap).map (sampleCsvRow (sampledHeader bytes)) := by
  unfold sampleCsv at sampled
  split at sampled
  · cases sampled
  · unfold sampledHeader sampledRecords
    cases found : crateRecords (detectDelimiter (bytes.take byteCap)) (bytes.take byteCap) with
    | nil =>
        rw [found] at sampled
        cases sampled
    | cons header records =>
        rw [found] at sampled
        dsimp only at sampled
        refine ⟨records, rfl, ?_⟩
        split at sampled
        · cases sampled
        · cases read : sampleCsvRows fromUtf8 header 0 (records.take cap) with
          | error problem =>
              rw [read] at sampled
              cases sampled
          | ok rows =>
              rw [read] at sampled
              cases sampled
              exact sampleCsvRows_ok read

theorem shownCount_eq (sampled : sampleCsv fromUtf8 (bytes.take byteCap) cap = .ok sample) :
    sample.rows.length = shownCount bytes cap := by
  obtain ⟨records, found, shown⟩ := sampleCsv_ok sampled
  unfold shownCount
  rw [shown, found, List.length_map, List.length_take, List.length_cons, Nat.add_sub_cancel]

end Csv

theorem comma_candidate : (44 : UInt8) ∈ candidates := List.mem_cons_self

/-! ### The job's reader and its tables -/

theorem goCsv_of_table {table : Table 44} (written : table.render = normalizeLines bytes)
    (feeds : table.Allowed (goRules 44)) :
    goCsv 44 bytes = { records := table.contents.map (List.map bytesText), err := none } := by
  have read : scan (goRules 44) (normalizeLines bytes) = between table.contents := by
    rw [← written]
    exact @scan_table (goRules 44) properGo table feeds
  unfold goCsv
  rw [read]
  rfl

private theorem exists_goTable (fine : (goCsv 44 bytes).err = none) :
    ∃ table : Table 44, table.Allowed (goRules 44) ∧ table.render = normalizeLines bytes := by
  have accepted : (scan (goRules 44) (normalizeLines bytes)).problem = none :=
    Option.map_eq_none_iff.mp fine
  exact @exists_table (goRules 44) rfl rfl (normalizeLines bytes) accepted

private theorem forall₂_fills_iff {Left Right : Type} {Holds : Right → Prop} (left : List Left) :
    ∀ right : List Right, List.Forall₂ (fun _ y => Holds y) left (right.take left.length) ↔
      left.length ≤ right.length ∧ ∀ y ∈ right.take left.length, Holds y := by
  induction left with
  | nil =>
      intro right
      exact iff_of_true .nil ⟨Nat.zero_le _, List.forall_mem_nil _⟩
  | cons x rest ih =>
      intro right
      cases right with
      | nil =>
          constructor
          · intro impossible
            cases impossible
          · rintro ⟨impossible, _⟩
            cases impossible
      | cons y others =>
          rw [List.length_cons, List.take_succ_cons, List.forall₂_cons, ih others,
            List.length_cons, List.forall_mem_cons, Nat.add_le_add_iff_right]
          tauto

theorem reads_csv_alike_iff {fromUtf8 : Bytes → Option String} {cap : Nat}
    {sample : Sample} (sampled : sampleCsv fromUtf8 (bytes.take byteCap) cap = .ok sample) :
    ReadsAlike (csvConnector CsvContent.read (some true) (goCsv 44 bytes)).toConnector sample.rows ↔
      ∃ table header rows, CsvAlike bytes cap table header rows := by
  obtain ⟨records, _, shown⟩ := sampleCsv_ok sampled
  have count := shownCount_eq sampled
  have rowsAlike : ∀ (header : List Bytes) (rows : List (List Bytes)),
      List.Forall₂ SameColumns sample.rows
        (((rows.map (List.map bytesText)).map (recordToMap (header.map bytesText))).take
          sample.rows.length) ↔
        shownCount bytes cap ≤ rows.length ∧ ∀ row ∈ rows.take (shownCount bytes cap),
          FillsColumns (sampledHeader bytes) header row.length := by
    intro header rows
    have same : (records.take cap).length = shownCount bytes cap := by
      rw [← count, shown, List.length_map]
    rw [count, List.map_map, ← List.map_take, shown, List.forall₂_map_left_iff,
      List.forall₂_map_right_iff, ← same, ← forall₂_fills_iff]
    simp only [Function.comp_apply, sameColumns_iff_fills]
  rw [reads_csv_iff]
  constructor
  · rintro ⟨fine, goHeader, goRows, goRecords, alike⟩
    obtain ⟨table, feeds, written⟩ := exists_goTable fine
    rw [goCsv_of_table written feeds] at goRecords
    cases contents : table.contents with
    | nil =>
        rw [contents] at goRecords
        cases goRecords
    | cons header rows =>
        rw [contents] at goRecords
        cases goRecords
        obtain ⟨enough, fills⟩ := (rowsAlike header rows).mp alike
        exact ⟨table, header, rows, written, feeds, contents, enough, fills⟩
  · rintro ⟨table, header, rows, alike⟩
    rw [goCsv_of_table alike.written alike.feeds, alike.contents]
    exact ⟨rfl, _, _, rfl, (rowsAlike header rows).mpr ⟨alike.enough, alike.fills⟩⟩

/-! ### Files written with the comma -/

/-- A file without carriage returns outside quotes and line ends, whose columns the sampler
finds at the comma. The first line with cells fits into what the sampler is given. -/
structure CommaTable (bytes : Bytes) (cap : Nat) (table : Table 44) (header : List Bytes)
    (rows : List (List Bytes)) : Prop where
  written : table.render = bytes
  noReturn : table.NoReturn
  contents : table.contents = header :: rows
  unmarked : ¬ [0xEF, 0xBB, 0xBF] <+: bytes
  comma : detectDelimiter (bytes.take byteCap) = 44
  sameEnds : ∀ cell ∈ header, feedOnly cell = cell
  headerFits : bytes.length ≤ byteCap ∨ ∃ early later, table.lines = early ++ later ∧
    (early.flatMap Line.render).length ≤ byteCap ∧ early.flatMap Line.contents ≠ []
  fills : ∀ row ∈ rows.take cap, FillsColumns header header row.length

theorem allowed_crate {table : Table 44} (noReturn : table.NoReturn) :
    table.Allowed (crateRules 44) := by
  constructor
  · intro line member
    have bare := noReturn.lines line member
    cases line with
    | row cells ending =>
        refine ⟨fun _ => bare, ?_⟩
        cases ending with
        | feed => trivial
        | returnFeed => rfl
    | blank ending =>
        cases ending with
        | feed => trivial
        | returnFeed => rfl
  · intro row last _returns
    exact noReturn.last row last

theorem allowed_normalized (table : Table 44) : table.normalized.Allowed (goRules 44) := by
  have feeds : (goRules 44).crEndsLine = false := rfl
  constructor
  · intro line member
    obtain ⟨original, _, same⟩ := List.mem_map.mp member
    rw [← same]
    cases original with
    | row cells ending => exact ⟨allowed_feed feeds _, trivial⟩
    | blank ending => trivial
  · intro row _last
    exact allowed_feed feeds row

theorem crateScan_table {table : Table 44} (noReturn : table.NoReturn) :
    scan (crateRules 44) table.render = between table.contents :=
  @scan_table (crateRules 44) (properCrate comma_candidate) table (allowed_crate noReturn)

theorem goScan_table {table : Table 44} (noReturn : table.NoReturn) :
    scan (goRules 44) (normalizeLines table.render) =
      between (table.contents.map (List.map feedOnly)) := by
  have plain : (44 : UInt8) ≠ carriageReturn := by
    decide
  rw [normalizeLines_table plain noReturn, ← Table.normalized_contents noReturn]
  exact @scan_table (goRules 44) properGo table.normalized (allowed_normalized table)

theorem sampledRecords_commaTable {cap : Nat} {table : Table 44}
    {header : List Bytes} {rows : List (List Bytes)} (comma : CommaTable bytes cap table header rows) :
    ∃ records, sampledRecords bytes = header :: records ∧ records.length ≤ rows.length := by
  have whole := crateScan_table comma.noReturn
  rw [comma.written, comma.contents] at whole
  have fewer := @scan_take_length (crateRules 44) rfl bytes byteCap
  rw [whole] at fewer
  have seen : sampledRecords bytes = (scan (crateRules 44) (bytes.take byteCap)).records := by
    unfold sampledRecords crateRecords
    rw [comma.comma, stripBom_take comma.unmarked]
  rw [← seen] at fewer
  have begins : [header] <+: sampledRecords bytes := by
    rcases comma.headerFits with short | ⟨early, later, parts, fits, some_record⟩
    · rw [seen, List.take_of_length_le short, whole]
      exact List.prefix_append [header] rows
    · have read : (early.flatMap Line.render).foldl (step (crateRules 44)) {} =
          between (early.flatMap Line.contents) := by
        apply @foldl_lines (crateRules 44) (properCrate comma_candidate) early []
        intro line member
        apply (allowed_crate comma.noReturn).lines line
        rw [parts]
        exact List.mem_append_left _ member
      have begins : early.flatMap Line.render <+: bytes := by
        rw [← comma.written, Table.render, parts, List.flatMap_append, List.append_assoc]
        exact List.prefix_append _ _
      obtain ⟨rest, cut⟩ := List.prefix_take_iff.mpr ⟨begins, fits⟩
      have inPart : early.flatMap Line.contents <+:
          (scan (crateRules 44) (early.flatMap Line.render ++ rest)).records :=
        scan_begins read rest
      have inTable : early.flatMap Line.contents <+: header :: rows := by
        rw [← comma.contents, Table.contents, parts, List.flatMap_append, List.append_assoc]
        exact List.prefix_append _ _
      rw [cut, ← seen] at inPart
      cases record : early.flatMap Line.contents with
      | nil => exact absurd record some_record
      | cons head tail =>
          rw [record] at inPart inTable
          rw [← (List.cons_prefix_cons.mp inTable).1]
          exact (List.prefix_append [head] tail).trans inPart
  obtain ⟨records, found⟩ := begins
  refine ⟨records, found.symm, ?_⟩
  rw [← found] at fewer
  exact Nat.le_of_succ_le_succ fewer

theorem csvAlike_of_commaTable {cap : Nat} {table : Table 44} {header : List Bytes}
    {rows : List (List Bytes)} (comma : CommaTable bytes cap table header rows) :
    CsvAlike bytes cap table.normalized header (rows.map (List.map feedOnly)) := by
  obtain ⟨records, found, fewer⟩ := sampledRecords_commaTable comma
  have seen : sampledHeader bytes = header := by
    unfold sampledHeader
    rw [found]
    rfl
  have count : shownCount bytes cap = min cap records.length := by
    unfold shownCount
    rw [found, List.length_cons, Nat.add_sub_cancel]
  constructor
  · rw [← comma.written]
    exact (normalizeLines_table (by decide) comma.noReturn).symm
  · exact allowed_normalized table
  · rw [Table.normalized_contents comma.noReturn, comma.contents, List.map_cons,
      List.map_congr_left comma.sameEnds, List.map_id']
  · rw [count, List.length_map]
    omega
  · intro row member
    rw [← List.map_take] at member
    obtain ⟨original, among, same⟩ := List.mem_map.mp member
    rw [seen, ← same, List.length_map]
    apply comma.fills original
    refine (List.take_prefix_take_left ?_).mem among
    omega

/-! ### The detected delimiter -/

theorem detectDelimiter_spec (bytes : Bytes) :
    detectDelimiter bytes ∈ candidates ∧
      (detectDelimiter bytes = 44 ∨ detectDelimiter bytes ∈ firstLine bytes) := by
  have later : ∀ (others : List UInt8) (best : UInt8 × Int), (∀ c ∈ others, c ∈ candidates) →
      best.1 ∈ candidates → (best.1 = 44 ∨ best.1 ∈ firstLine bytes) → 0 ≤ best.2 →
      ∀ last, last = (others.foldl (fun best c =>
        if best.2 < ((firstLine bytes).count c : Int) then (c, ((firstLine bytes).count c : Int))
        else best) best).1 →
      last ∈ candidates ∧ (last = 44 ∨ last ∈ firstLine bytes) := by
    intro others
    induction others with
    | nil =>
        intro best _candidates chosen occurs _counted last same
        rw [same]
        exact ⟨chosen, occurs⟩
    | cons c rest ih =>
        intro best all chosen occurs counted last same
        rw [List.foldl_cons] at same
        obtain ⟨first, others⟩ := List.forall_mem_cons.mp all
        split at same
        · rename_i more
          have positive : 0 < (firstLine bytes).count c := by
            omega
          exact ih _ others first (.inr (List.count_pos_iff.mp positive)) (by simp) last same
        · exact ih best others chosen occurs counted last same
  have start : ((-1 : Int) < ((firstLine bytes).count 44 : Int)) := by
    omega
  apply later [59, 9, 124] (44, ((firstLine bytes).count 44 : Int))
    (fun _ member => List.mem_cons_of_mem _ member) comma_candidate (.inl rfl) (by simp)
  unfold detectDelimiter
  rw [candidates, List.foldl_cons, if_pos start]

theorem bytesText_injective : Function.Injective bytesText := by
  have codes : ∀ n < 256, (Char.ofNat n).toNat = n := by
    intro n small
    have valid : n.isValidChar := by
      left
      omega
    unfold Char.ofNat
    rw [dif_pos valid]
    rfl
  have chars : Function.Injective (fun b : UInt8 => Char.ofNat b.toNat) := by
    intro x y same
    have numbers := congrArg Char.toNat same
    dsimp only at numbers
    rw [codes _ x.toNat_lt, codes _ y.toNat_lt] at numbers
    exact UInt8.toNat_inj.mp numbers
  intro first second same
  exact List.map_injective_iff.mpr chars (String.ofList_injective same)

theorem comma_of_names {line : Bytes} {delimiter : UInt8} {width : Nat} (filled : 0 < width)
    (inside : delimiter ∈ line)
    (same : ∀ name, name ∈ (line.splitOn delimiter).map bytesText ↔
      ∃ index < width, name = columnName (line.splitOn 44) index) :
    delimiter = 44 := by
  apply Classical.byContradiction
  intro other
  -- No name of the sampler has a comma, so that the line has none.
  have noComma : 44 ∉ line := by
    intro present
    obtain ⟨piece, among, comma⟩ := Splitting.exists_mem_splitOn (Ne.symm other) line present
    obtain ⟨index, _, named⟩ := (same (bytesText piece)).mp (List.mem_map_of_mem among)
    unfold columnName at named
    cases found : (line.splitOn 44)[index]? with
    | some cell =>
        rw [found] at named
        rw [bytesText_injective named] at comma
        exact Splitting.not_mem_of_mem_splitOn line cell (List.mem_of_getElem? found) comma
    | none =>
        rw [found] at named
        have char : ',' ∈ (bytesText piece).toList := by
          unfold bytesText
          rw [String.toList_ofList]
          exact List.mem_map.mpr ⟨44, comma, rfl⟩
        rw [named, Option.map_none, Option.getD_none, String.toList_append] at char
        rcases List.mem_append.mp char with early | late
        · revert early
          decide
        · exact Decimals.not_mem_digits (by decide) index late
  have whole : line.splitOn 44 = [line] := List.splitOn_eq_singleton noComma
  have first : bytesText line ∈ (line.splitOn delimiter).map bytesText := by
    rw [same]
    refine ⟨0, filled, ?_⟩
    rw [whole]
    rfl
  obtain ⟨piece, among, equal⟩ := List.mem_map.mp first
  rw [bytesText_injective equal] at among
  exact Splitting.not_mem_of_mem_splitOn line line among inside

/-- A file that the sampler sees whole, without a byte order mark or carriage
returns, and without quotes in its first line. -/
structure PlainCsv (bytes : Bytes) : Prop where
  short : bytes.length ≤ byteCap
  unmarked : ¬ [0xEF, 0xBB, 0xBF] <+: bytes
  noReturn : ∀ b ∈ bytes, b ≠ carriageReturn
  unquoted : quote ∉ firstLine bytes

theorem firstLine_unquoted (plain : PlainCsv bytes) : Unquoted (firstLine bytes) := by
  intro b member
  have piece : firstLine bytes ∈ bytes.splitOn lineFeed := by
    unfold firstLine at member ⊢
    cases found : (bytes.splitOn lineFeed).find? (fun line => !line.isEmpty) with
    | none =>
        rw [found] at member
        cases member
    | some line => exact List.mem_of_find?_eq_some found
  refine ⟨?_, ?_, ?_⟩
  · intro quoted
    exact plain.unquoted (quoted ▸ member)
  · intro feed
    exact Splitting.not_mem_of_mem_splitOn bytes _ piece (feed ▸ member)
  · exact plain.noReturn b (Splitting.mem_of_mem_splitOn bytes _ piece b member)

private theorem eq_feed_of_firstLine (blank : firstLine bytes = []) :
    ∀ b ∈ bytes, b = lineFeed := by
  intro b member
  apply Classical.byContradiction
  intro other
  obtain ⟨piece, among, inside⟩ := Splitting.exists_mem_splitOn other bytes member
  have shown : (!piece.isEmpty) = true := by
    cases piece with
    | nil => cases inside
    | cons c rest => rfl
  unfold firstLine at blank
  cases found : (bytes.splitOn lineFeed).find? (fun line => !line.isEmpty) with
  | none => exact List.find?_eq_none.mp found piece among shown
  | some line =>
      rw [found] at blank
      have nonempty := List.find?_some found
      change line = [] at blank
      rw [blank] at nonempty
      cases nonempty

private theorem plain_parts (plain : PlainCsv bytes) {rules : Rules}
    (proper : rules.Proper) {header second : List Bytes} {more : List (List Bytes)}
    (found : (scan rules bytes).records = header :: second :: more) :
    ∃ blanks rest, bytes = blanks ++ (firstLine bytes ++ lineFeed :: rest) ∧
      firstLine bytes ≠ [] ∧ ∀ b ∈ blanks, b = lineFeed := by
  have written : firstLine bytes ≠ [] := by
    intro blank
    have nothing : scan rules bytes = between [] := by
      unfold scan
      change finish rules (bytes.foldl (step rules) (between [])) = _
      rw [foldl_blanks (eq_feed_of_firstLine blank)]
      rfl
    rw [nothing] at found
    cases found
  obtain ⟨blanks, rest, whole, feeds, ends⟩ := Splitting.firstPiece_parts bytes written
  change bytes = blanks ++ (firstLine bytes ++ rest) at whole
  rcases ends with last | ⟨others, continued⟩
  · have only := scan_onlyLine proper written (firstLine_unquoted plain) feeds
    rw [last, List.append_nil] at whole
    rw [← whole] at only
    rw [only] at found
    cases found
  · rw [continued] at whole
    exact ⟨blanks, others, whole, written, feeds⟩

theorem plain_header {bytes blanks rest : Bytes} (plain : PlainCsv bytes)
    (whole : bytes = blanks ++ (firstLine bytes ++ lineFeed :: rest)) (written : firstLine bytes ≠ [])
    (feeds : ∀ b ∈ blanks, b = lineFeed) {rules : Rules} (proper : rules.Proper)
    {header : List Bytes} {records : List (List Bytes)}
    (found : (scan rules bytes).records = header :: records) :
    header = (firstLine bytes).splitOn rules.delimiter := by
  have read := foldl_firstLine proper written (firstLine_unquoted plain) feeds
  have begins := scan_begins read rest
  have joined : blanks ++ (firstLine bytes ++ [lineFeed]) ++ rest = bytes := by
    rw [List.append_assoc, List.append_assoc, List.singleton_append]
    exact whole.symm
  rw [joined, found] at begins
  exact (List.cons_prefix_cons.mp begins).1.symm

private theorem normalizeLines_of_plain (plain : PlainCsv bytes) :
    normalizeLines bytes = bytes := by
  have same := normalizeLines_plain plain.noReturn []
  rw [List.append_nil, normalizeLines, List.append_nil] at same
  exact same

private theorem row_ne_nil (table : Table 44) : ∀ record ∈ table.contents, record ≠ [] := by
  intro record member
  unfold Table.contents at member
  rcases List.mem_append.mp member with early | last
  · obtain ⟨line, _, inside⟩ := List.mem_flatMap.mp early
    cases line with
    | row row ending =>
        rw [List.mem_singleton.mp inside]
        exact List.cons_ne_nil _ _
    | blank ending => cases inside
  · cases final : table.last with
    | none =>
        rw [final] at last
        cases last
    | some row =>
        rw [final] at last
        rw [List.mem_singleton.mp last]
        exact List.cons_ne_nil _ _

theorem commaTable_of_alike {cap : Nat} {table : Table 44} {header : List Bytes}
    {rows : List (List Bytes)} (plain : PlainCsv bytes) (shows : 0 < shownCount bytes cap)
    (alike : CsvAlike bytes cap table header rows) : CommaTable bytes cap table header rows := by
  have whole : bytes.take byteCap = bytes := List.take_of_length_le plain.short
  have unmarked := stripBom_take plain.unmarked byteCap
  rw [whole] at unmarked
  obtain ⟨candidate, occurs⟩ := detectDelimiter_spec bytes
  have written : table.render = bytes :=
    alike.written.trans (normalizeLines_of_plain plain)
  have noReturn : table.NoReturn := by
    apply Table.noReturn_of_render
    rw [written]
    exact plain.noReturn
  have seen : sampledRecords bytes =
      (scan (crateRules (detectDelimiter bytes)) bytes).records := by
    unfold sampledRecords crateRecords
    rw [whole, unmarked]
  obtain ⟨first, second, more, found⟩ : ∃ first second more,
      sampledRecords bytes = first :: second :: more := by
    unfold shownCount at shows
    cases found : sampledRecords bytes with
    | nil =>
        rw [found] at shows
        change 0 < min cap 0 at shows
        omega
    | cons first rest =>
        cases rest with
        | nil =>
            rw [found] at shows
            change 0 < min cap 0 at shows
            omega
        | cons second more => exact ⟨first, second, more, rfl⟩
  have two := found
  rw [seen] at two
  obtain ⟨blanks, rest, parts, nonempty, feeds⟩ := plain_parts plain (properCrate candidate) two
  have columns := plain_header plain parts nonempty feeds (properCrate candidate) two
  have crate := crateScan_table noReturn
  rw [written, alike.contents] at crate
  have jobHeader := plain_header plain parts nonempty feeds (properCrate comma_candidate)
    (congrArg Scan.records crate)
  have shown : sampledHeader bytes = first := by
    unfold sampledHeader
    rw [found]
    rfl
  have comma : detectDelimiter bytes = 44 := by
    rcases occurs with comma | inside
    · exact comma
    · cases records : rows with
      | nil =>
          have enough := alike.enough
          rw [records] at enough
          exact absurd enough (Nat.not_le_of_lt shows)
      | cons row others =>
          have sampled : row ∈ rows.take (shownCount bytes cap) := by
            obtain ⟨count, same⟩ := Nat.exists_eq_succ_of_ne_zero (Nat.ne_of_gt shows)
            rw [records, same, Nat.succ_eq_add_one, List.take_succ_cons]
            exact List.mem_cons_self
          have fills := alike.fills row sampled
          have width : 0 < row.length := by
            apply List.length_pos_of_ne_nil
            apply row_ne_nil table
            rw [alike.contents, records]
            exact .tail _ List.mem_cons_self
          rw [shown, columns, jobHeader] at fills
          exact comma_of_names width inside fills
  rw [seen, comma, crate] at found
  have sameHeader : header = first := (List.cons.inj found).1
  have count : shownCount bytes cap = min cap rows.length := by
    unfold shownCount
    rw [seen, comma, crate]
    rfl
  refine ⟨written, noReturn, alike.contents, plain.unmarked, ?_, ?_, .inl plain.short, ?_⟩
  · rw [whole, comma]
  · intro cell member
    rw [jobHeader] at member
    apply feedOnly_bare
    intro b inside
    exact (firstLine_unquoted plain b
      (Splitting.mem_of_mem_splitOn _ cell member b inside)).2.2
  · intro row member
    have fills := alike.fills row
    rw [count, shown, ← sameHeader] at fills
    apply fills
    rwa [← List.take_take, List.take_length]

/-! ### The whole -/

def ReadAlike (parsers : Parsers) (filename : String) (bytes : Bytes) (cap : Nat) : Prop :=
  match sniffFormatFromKey filename with
  | some .csv => ∃ table header rows, CsvAlike bytes cap table header rows
  | some .json => JsonAlike parsers bytes
  | some .ndjson => JsonAlike parsers bytes
  | some .xml => False
  | none => False

/-- What the sampler accepts the job reads the same way exactly when the condition holds.
For a plain CSV file of which a row is shown it says that the file is written with commas. -/
theorem sampled_file_read_alike_iff {parsers : Parsers} {decoders : Decoders} {filename : String}
    {bytes : Bytes} {asked : Option Nat} {sample : Sample}
    (agreement : Agreement parsers decoders.json)
    (notXml : sniffFormatFromKey filename ≠ some .xml)
    (sampled : sampleFile parsers filename bytes asked = .ok sample) :
    (JobReads decoders filename bytes sample.rows ↔
        ReadAlike parsers filename bytes (clampRows asked)) ∧
      (sniffFormatFromKey filename = some .csv → PlainCsv bytes → sample.rows ≠ [] →
        (ReadAlike parsers filename bytes (clampRows asked) ↔
          ∃ table header rows, CommaTable bytes (clampRows asked) table header rows)) := by
  unfold sampleFile at sampled
  unfold ReadAlike JobReads
  cases sniffed : sniffFormatFromKey filename with
  | none =>
      rw [sniffed] at sampled
      cases sampled
  | some format =>
      rw [sniffed] at sampled
      rw [formatFromFilename_of_sniff sniffed]
      cases format with
      | csv =>
          refine ⟨reads_csv_alike_iff sampled, ?_⟩
          intro _csv plain shows
          have positive : 0 < shownCount bytes (clampRows asked) := by
            rw [← shownCount_eq sampled]
            exact List.length_pos_of_ne_nil shows
          constructor
          · rintro ⟨table, header, rows, alike⟩
            exact ⟨table, header, rows, commaTable_of_alike plain positive alike⟩
          · rintro ⟨table, header, rows, comma⟩
            exact ⟨_, _, _, csvAlike_of_commaTable comma⟩
      | json => exact ⟨json_reads_alike_iff agreement sampled, fun impossible => by cases impossible⟩
      | ndjson =>
          exact ⟨json_reads_alike_iff agreement sampled, fun impossible => by cases impossible⟩
      | xml => exact absurd sniffed notXml

def ascii (text : String) : Bytes := text.toList.map (fun c => UInt8.ofNat c.toNat)

def recordText : String := "\x7b\"id\":1\x7d"

def recordFields : Data := [("id", .number "1")]

def recordParsers : Parsers where
  fromUtf8 bytes := some (bytesText bytes)
  fromSlice bytes :=
    if bytes = 91 :: (ascii recordText ++ [93]) then .ok [.object recordFields]
    else .error "expected value"
  fromStr text := if text = recordText then .ok (.object recordFields) else .error "expected value"
  xmlSample _ _ := .error "xml: no records"

def recordDecoder : JsonDecoder Bytes where
  token bytes :=
    match bytes.dropWhile isJsonWhitespace with
    | [] => .failed "EOF"
    | b :: rest =>
        if b = 91 then .delim '[' rest
        else if b = 123 then .delim '\x7b' rest
        else .failed "invalid character"
  more bytes :=
    match bytes.dropWhile isJsonWhitespace with
    | [] => false
    | b :: _ => b != 93
  decode bytes :=
    if (ascii recordText).isPrefixOf bytes = true then
      .value recordFields (bytes.drop (ascii recordText).length)
    else .failed "invalid character"

def recordDecoders : Decoders where
  json := recordDecoder
  xml _ := { tokens := [] }

theorem record_agreement : Agreement recordParsers recordDecoder where
  opens bytes rest token := by
    unfold firstJsonByte
    rw [List.find?_not_eq_head?_dropWhile]
    unfold recordDecoder at token
    dsimp only at token
    cases shape : bytes.dropWhile isJsonWhitespace with
    | nil =>
        rw [shape] at token
        cases token
    | cons b later =>
        rw [shape] at token
        dsimp only at token
        split at token
        · rename_i bracket
          rw [bracket]
          rfl
        · split at token
          · cases token
          · cases token
  delivers bytes values parsed rest := by
    unfold recordParsers at parsed
    dsimp only at parsed
    split at parsed
    · rename_i array
      cases parsed
      refine ⟨ascii recordText ++ 93 :: rest, ?_, ?_⟩
      · rw [array]
        rfl
      · exact .map rfl rfl trivial (fun _ => Iff.rfl) (.finished rfl)
    · cases parsed
  blank line spaces := by
    have runes : (line.map (fun b => Char.ofNat b.toNat)).any (fun c => !Batch.isSpaceRune c) =
        false := by
      rw [List.any_eq_false]
      intro c member
      obtain ⟨b, inside, same⟩ := List.mem_map.mp member
      have space := spaces b inside
      unfold isAsciiWhitespace at space
      simp only [Bool.or_eq_true, beq_iff_eq] at space
      rw [← same]
      rcases space with (((blank | tab) | feed) | page) | carriage
      · rw [blank]
        decide
      · rw [tab]
        decide
      · rw [feed]
        decide
      · rw [page]
        decide
      · rw [carriage]
        decide
    change String.ofList (Batch.trimRunes (bytesText line).toList) = ""
    unfold bytesText Batch.trimRunes
    rw [String.toList_ofList, (trimmed_eq_nil_iff _).mpr runes]

def commaFile : Bytes := ascii "id,name\n1,Ada\n"

theorem bare_ascii {text : String} (all : (ascii text).all (fun b =>
      b != 44 && (b != quote && b != lineFeed)) = true) :
    ∀ b ∈ ascii text, b ≠ 44 ∧ b ≠ quote ∧ b ≠ lineFeed := by
  simpa using all

def commaTable : Table 44 where
  lines :=
    [.row ⟨.plain (ascii "id") (bare_ascii (by decide)),
        [.plain (ascii "name") (bare_ascii (by decide))], nofun⟩ .feed,
      .row ⟨.plain (ascii "1") (bare_ascii (by decide)),
        [.plain (ascii "Ada") (bare_ascii (by decide))], nofun⟩ .feed]

private theorem commaFile_commaTable : CommaTable commaFile 25 commaTable [ascii "id", ascii "name"]
    [[ascii "1", ascii "Ada"]] where
  written := by decide
  noReturn := Table.noReturn_of_render (by decide +kernel)
  contents := by decide
  unmarked := by decide
  comma := by decide +kernel
  sameEnds := by decide
  headerFits := .inl (by decide)
  fills row member := by
    rw [List.mem_singleton.mp member]
    exact fillsColumns_length [ascii "id", ascii "name"]

/-- A last line without its line feed, which both readers end at the carriage return. -/
def cutFile : Bytes := ascii "id,name\r\n1,Ada\r"

def cutTable : Table 44 where
  lines :=
    [.row ⟨.plain (ascii "id") (bare_ascii (by decide +kernel)),
        [.plain (ascii "name") (bare_ascii (by decide +kernel))], nofun⟩ .feed]
  last := some ⟨.plain (ascii "1") (bare_ascii (by decide +kernel)),
    [.plain (ascii "Ada") (bare_ascii (by decide +kernel))], nofun⟩

private theorem cutFile_alike : CsvAlike cutFile 25 cutTable [ascii "id", ascii "name"]
    [[ascii "1", ascii "Ada"]] where
  written := by decide
  feeds := by
    have feeds : (goRules 44).crEndsLine = false := rfl
    refine ⟨List.forall_mem_singleton.mpr ⟨allowed_feed feeds _, trivial⟩, ?_⟩
    exact fun row _last => allowed_feed feeds row
  contents := by decide
  enough := by decide +kernel
  fills row member := by
    have columns : sampledHeader cutFile = [ascii "id", ascii "name"] := by
      decide +kernel
    rw [columns, List.mem_singleton.mp (List.mem_of_mem_take member)]
    exact fillsColumns_length [ascii "id", ascii "name"]

theorem comma_file_read_alike :
    (∃ sample, sampleFile recordParsers "people.csv" commaFile none = .ok sample ∧
      JobReads recordDecoders "people.csv" commaFile sample.rows) ∧
    ∃ sample, sampleFile recordParsers "people.csv" cutFile none = .ok sample ∧
      JobReads recordDecoders "people.csv" cutFile sample.rows := by
  have named : sniffFormatFromKey "people.csv" = some .csv := by
    decide +kernel
  have notXml : sniffFormatFromKey "people.csv" ≠ some .xml := by
    rw [named]
    decide
  have sampled : ∀ bytes : Bytes, (∃ sample, sampleCsv recordParsers.fromUtf8 (bytes.take byteCap)
      (clampRows none) = .ok sample) →
      ∃ sample, sampleFile recordParsers "people.csv" bytes none = .ok sample := by
    intro bytes accepted
    unfold sampleFile
    rw [named]
    exact accepted
  constructor
  · obtain ⟨sample, accepted⟩ := sampled commaFile ⟨_, rfl⟩
    refine ⟨sample, accepted, ?_⟩
    apply (@sampled_file_read_alike_iff _ recordDecoders _ _ _ _ record_agreement notXml
      accepted).1.mpr
    unfold ReadAlike
    rw [named]
    exact ⟨_, _, _, csvAlike_of_commaTable commaFile_commaTable⟩
  · obtain ⟨sample, accepted⟩ := sampled cutFile ⟨_, rfl⟩
    refine ⟨sample, accepted, ?_⟩
    apply (@sampled_file_read_alike_iff _ recordDecoders _ _ _ _ record_agreement notXml
      accepted).1.mpr
    unfold ReadAlike
    rw [named]
    exact ⟨_, _, _, cutFile_alike⟩

def semicolonFile : Bytes := ascii "id;name\n1;Ada\n"

def linesFile : Bytes := ascii recordText

theorem accepted_files_not_read_alike :
    Agreement recordParsers recordDecoders.json ∧
      (∃ sample, sampleFile recordParsers "people.csv" semicolonFile none = .ok sample ∧
        sample.columns = ["id", "name"] ∧
        ¬ JobReads recordDecoders "people.csv" semicolonFile sample.rows) ∧
      ∃ sample, sampleFile recordParsers "people.ndjson" linesFile none = .ok sample ∧
        sample.columns = ["id"] ∧ ¬ JobReads recordDecoders "people.ndjson" linesFile sample.rows := by
  refine ⟨record_agreement, ?_, ?_⟩
  · have named : sniffFormatFromKey "people.csv" = some .csv := by
      decide +kernel
    have noReturn : ∀ b ∈ semicolonFile, b ≠ carriageReturn := by
      have all : semicolonFile.all (fun b => b != carriageReturn) = true := by
        decide
      simpa using all
    have plain : PlainCsv semicolonFile :=
      ⟨by decide, by decide, noReturn, by decide +kernel⟩
    have sampled : ∃ sample, sampleCsv recordParsers.fromUtf8 (semicolonFile.take byteCap)
        (clampRows none) = .ok sample ∧ sample.columns = ["id", "name"] ∧ sample.rows ≠ [] :=
      ⟨_, rfl, by decide +kernel, List.cons_ne_nil _ _⟩
    obtain ⟨sample, accepted, columns, shows⟩ := sampled
    refine ⟨sample, ?_, columns, ?_⟩
    · unfold sampleFile
      rw [named]
      exact accepted
    · unfold JobReads
      rw [formatFromFilename_of_sniff named]
      intro reads
      obtain ⟨table, header, rows, alike⟩ := (reads_csv_alike_iff accepted).mp reads
      have positive : 0 < shownCount semicolonFile (clampRows none) := by
        rw [← shownCount_eq accepted]
        exact List.length_pos_of_ne_nil shows
      have comma := (commaTable_of_alike plain positive alike).comma
      revert comma
      decide +kernel
  · have named : sniffFormatFromKey "people.ndjson" = some .ndjson := by
      decide +kernel
    have sampled : ∃ sample, sampleJson recordParsers (linesFile.take byteCap) (clampRows none) =
        .ok sample ∧ sample.columns = ["id"] := by
      have lines : linesFile.splitOn lineFeed = [linesFile] := by
        decide
      have trimmed : Batch.trimSpace (bytesText linesFile) = recordText := by
        decide +kernel
      have shown : recordText ≠ "" := by
        decide +kernel
      have records : jsonRecords recordParsers (linesFile.take byteCap) =
          .ok [.object recordFields] := by
        change Except.ok (parseNdjson recordParsers linesFile) = _
        unfold parseNdjson recordParsers
        rw [lines]
        simp only [List.filterMap_cons, List.filterMap_nil, Option.getD_some, trimmed,
          if_neg shown, if_true]
      unfold sampleJson
      rw [records]
      exact ⟨_, rfl, rfl⟩
    obtain ⟨sample, accepted, columns⟩ := sampled
    refine ⟨sample, ?_, columns, ?_⟩
    · unfold sampleFile
      rw [named]
      exact accepted
    · unfold JobReads
      rw [formatFromFilename_of_sniff named]
      intro reads
      have opens := ((json_reads_alike_iff record_agreement accepted).mp reads).1
      revert opens
      decide +kernel

end MigrationPlatform.Sampling
