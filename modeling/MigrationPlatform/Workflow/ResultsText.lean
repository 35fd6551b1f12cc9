/-
The text of a results file, and the connector that reads it.

`writeResultsCSV` hands its lines to the writer of `encoding/csv`, which quotes the
fields that need it. Whatever the cells hold, the reader of a job finds the same
records again; only a carriage return before a line feed is lost.
-/

import MigrationPlatform.Connectors.CsvCells
import MigrationPlatform.Foundation.Utf8
import MigrationPlatform.Sampling.SampledIngest
import MigrationPlatform.Workflow.FileMigration
import MigrationPlatform.Workflow.ResultsExport

namespace MigrationPlatform.Workflow

open MigrationPlatform.Connectors
open MigrationPlatform.Sampling DelimitedText
open Utf8 (Bytes)
open ResumableIteration (take)

/-- The writer's delimiter, and the bytes that it never leaves without quotes. -/
abbrev comma : UInt8 := 44

def isSpecial (b : UInt8) : Bool :=
  b == lineFeed || b == carriageReturn || b == quote || b == comma

def beginsWithSpace (field : Bytes) : Bool :=
  match Utf8.runes field with
  | .scalar c :: _ => Batch.isSpaceRune c
  | _ => false

/-- A field `\.` would end a copy into a table. -/
def fieldNeedsQuotes (field : Bytes) : Bool :=
  if field = [] then false
  else if field = [92, 46] then true
  else field.any isSpecial || beginsWithSpace field

def writeField (field : Bytes) : Bytes :=
  if fieldNeedsQuotes field = true then quote :: (escape field ++ [quote]) else field

def writeRecord : List Bytes → Bytes
  | [] => [lineFeed]
  | field :: rest =>
      writeField field ++ rest.flatMap (fun other => comma :: writeField other) ++ [lineFeed]

def fieldBytes (field : String) : Bytes := Utf8.encode field.toList

def CsvFile.text (file : CsvFile) : Bytes :=
  (file.header :: file.lines).flatMap (fun line => writeRecord (line.map fieldBytes))

theorem bare_of_unquoted {field : Bytes} (unquoted : fieldNeedsQuotes field ≠ true) :
    ∀ b ∈ field, (b ≠ comma ∧ b ≠ quote ∧ b ≠ lineFeed) ∧ b ≠ carriageReturn := by
  intro b member
  have plain : isSpecial b = false := by
    unfold fieldNeedsQuotes at unquoted
    rw [if_neg (List.ne_nil_of_mem member)] at unquoted
    split at unquoted
    · exact absurd rfl unquoted
    · have neither := Bool.or_eq_false_iff.mp (Bool.eq_false_of_not_eq_true unquoted)
      exact Bool.eq_false_of_not_eq_true (List.any_eq_false.mp neither.1 b member)
  simp only [isSpecial, Bool.or_eq_false_iff, beq_eq_false_iff_ne] at plain
  obtain ⟨⟨⟨feed, carriage⟩, mark⟩, delimiter⟩ := plain
  exact ⟨⟨delimiter, mark, feed⟩, carriage⟩

def cellOf (field : Bytes) : Cell comma :=
  if quoted : fieldNeedsQuotes field = true then .quoted field
  else .plain field (fun b member => (bare_of_unquoted quoted b member).1)

theorem cellOf_noReturn (field : Bytes) : (cellOf field).NoReturn := by
  unfold cellOf
  split
  · trivial
  · rename_i unquoted
    exact fun b member => (bare_of_unquoted unquoted b member).2

theorem cellOf_render (field : Bytes) : (cellOf field).render = writeField field := by
  unfold cellOf writeField
  split <;> rfl

theorem cellOf_content (field : Bytes) : (cellOf field).content = field := by
  unfold cellOf
  split <;> rfl

private theorem writeField_ne_nil {field : Bytes} (some_byte : field ≠ []) :
    writeField field ≠ [] := by
  unfold writeField
  split
  · exact List.cons_ne_nil _ _
  · exact some_byte

def IsBlank (record : List Bytes) : Prop := record = [] ∨ record = [[]]

instance (record : List Bytes) : Decidable (IsBlank record) :=
  inferInstanceAs (Decidable (record = [] ∨ record = [[]]))

def rowOf (field : Bytes) (rest : List Bytes) (filled : ¬IsBlank (field :: rest)) :
    TableRow comma where
  first := cellOf field
  others := rest.map cellOf
  written := by
    intro alone
    rw [cellOf_render]
    apply writeField_ne_nil
    intro empty
    exact filled (.inr (by rw [empty, List.map_eq_nil_iff.mp alone]))

def lineOf (record : List Bytes) : Line comma :=
  match record with
  | [] => .blank .feed
  | field :: rest =>
      if blank : IsBlank (field :: rest) then .blank .feed else .row (rowOf field rest blank) .feed

private theorem lineOf_noReturn (record : List Bytes) : (lineOf record).NoReturn := by
  cases record with
  | nil => trivial
  | cons field rest =>
      unfold lineOf
      dsimp only
      split
      · trivial
      · refine ⟨cellOf_noReturn field, ?_⟩
        intro cell member
        obtain ⟨other, _, same⟩ := List.mem_map.mp member
        rw [← same]
        exact cellOf_noReturn other

private theorem renderOthers_cellOf (rest : List Bytes) :
    renderOthers (rest.map cellOf) = rest.flatMap (fun other => comma :: writeField other) := by
  induction rest with
  | nil => rfl
  | cons field rest ih =>
      rw [List.map_cons, renderOthers, ih, cellOf_render, List.flatMap_cons, List.cons_append]

private theorem lineOf_render (record : List Bytes) :
    (lineOf record).render = writeRecord record := by
  cases record with
  | nil => rfl
  | cons field rest =>
      unfold lineOf
      dsimp only
      split
      · rename_i blank
        rcases blank with impossible | single
        · cases impossible
        · cases single
          rfl
      · change ((cellOf field).render ++ renderOthers (rest.map cellOf)) ++ [lineFeed] = _
        rw [cellOf_render, renderOthers_cellOf]
        rfl

private theorem lineOf_contents (record : List Bytes) :
    (lineOf record).contents = if IsBlank record then [] else [record] := by
  cases record with
  | nil => rfl
  | cons field rest =>
      unfold lineOf
      dsimp only
      split
      · rfl
      · have others : (rest.map cellOf).map Cell.content = rest := by
          rw [List.map_map]
          exact List.map_id'' cellOf_content rest
        change [(cellOf field).content :: (rest.map cellOf).map Cell.content] = _
        rw [cellOf_content, others]

def readBack (field : Bytes) : String := bytesText (feedOnly field)

private theorem contents_lineOf (records : List (List Bytes)) :
    (records.map lineOf).flatMap Line.contents =
      records.filter (fun record => !decide (IsBlank record)) := by
  induction records with
  | nil => rfl
  | cons record rest ih =>
      rw [List.map_cons, List.flatMap_cons, ih, lineOf_contents, List.filter_cons]
      by_cases blank : IsBlank record
      · rw [if_pos blank, decide_eq_true blank]
        rfl
      · rw [if_neg blank, decide_eq_false blank]
        rfl

theorem goCsv_writeRecord (records : List (List Bytes)) :
    goCsv comma (records.flatMap writeRecord) =
      { records := (records.filter (fun record => !decide (IsBlank record))).map
          (List.map readBack)
        err := none } := by
  have written : ({ lines := records.map lineOf } : Table comma).render =
      records.flatMap writeRecord := by
    unfold Table.render
    rw [List.flatMap_map, List.flatMap_congr (fun record _member => lineOf_render record)]
    exact List.append_nil _
  have contents : ({ lines := records.map lineOf } : Table comma).contents =
      records.filter (fun record => !decide (IsBlank record)) := by
    unfold Table.contents
    rw [contents_lineOf]
    exact List.append_nil _
  have noReturn : ({ lines := records.map lineOf } : Table comma).NoReturn := by
    constructor
    · intro line member
      obtain ⟨record, _, same⟩ := List.mem_map.mp member
      rw [← same]
      exact lineOf_noReturn record
    · intro row absent
      cases absent
  have read := goScan_table noReturn
  rw [written, contents] at read
  unfold goCsv
  rw [read]
  simp only [between, Option.map_none, List.map_map, List.map_comp_map]
  rfl

section Exported

variable {Float Other Doc Expr : Type} {lib : ExportLibrary Float Other Doc Expr}

private theorem not_blank_of_line {line : List String} (wide : 3 ≤ line.length) :
    ¬IsBlank (line.map fieldBytes) := by
  intro blank
  have length : (line.map fieldBytes).length ≤ 1 := by
    rcases blank with empty | single
    · rw [empty]
      exact Nat.zero_le 1
    · rw [single]
      exact Nat.le_refl 1
  rw [List.length_map] at length
  omega

def readLine (line : List String) : List String := line.map (fun cell => readBack (fieldBytes cell))

private theorem CsvFile.goCsv_text (file : CsvFile) (wide : 3 ≤ file.header.length)
    (lines : ∀ line ∈ file.lines, 3 ≤ line.length) :
    goCsv comma file.text =
      { records := readLine file.header :: file.lines.map readLine, err := none } := by
  have all : ∀ line ∈ file.header :: file.lines, 3 ≤ line.length :=
    List.forall_mem_cons.mpr ⟨wide, lines⟩
  have kept : ((file.header :: file.lines).map (List.map fieldBytes)).filter
      (fun record => !decide (IsBlank record)) =
        (file.header :: file.lines).map (List.map fieldBytes) := by
    rw [List.filter_eq_self]
    intro record member
    obtain ⟨line, inFile, same⟩ := List.mem_map.mp member
    rw [← same, decide_eq_false (not_blank_of_line (all line inFile))]
    rfl
  have read := goCsv_writeRecord ((file.header :: file.lines).map (List.map fieldBytes))
  rw [kept, List.flatMap_map, List.map_map] at read
  unfold CsvFile.text
  rw [read]
  unfold readLine
  simp only [List.map_cons, Function.comp_def, List.map_map]

/-- The row that the connector makes of a stored row: the names of the header, each with
the cell of the last column that has it. -/
structure ReadsBack (lib : ExportLibrary Float Other Doc Expr) (results : JobResults)
    (cols : List ExportColumn) (stored : StoredRow) (row : Row) : Prop where
  distinct : (row.data.map Prod.fst).Nodup
  names : ∀ name, name ∈ row.data.map Prod.fst ↔ name ∈ readLine (headers cols)
  cells : ∀ (i : Nat) (name text : String), (readLine (headers cols))[i]? = some name →
    (readLine (results.line lib cols stored))[i]? = some text →
    name ∉ (readLine (headers cols)).drop (i + 1) → row.data.lookup name = some (.text text)

private theorem readsBack_of_data {results : JobResults} {cols : List ExportColumn}
    {stored : StoredRow}
    {row : Row} (data : row.data =
      recordToMap (readLine (headers cols)) (readLine (results.line lib cols stored))) :
    ReadsBack lib results cols stored row := by
  have same : (readLine (results.line lib cols stored)).length =
      (readLine (headers cols)).length := by
    unfold readLine
    rw [List.length_map, List.length_map, line_length]
  obtain ⟨distinct, names⟩ := recordToMap_names same
  rw [← data] at distinct names
  refine ⟨distinct, names, ?_⟩
  intro i name text column held last
  rw [data]
  exact recordToMap_lookup same column held last

def JobResults.csvFile (lib : ExportLibrary Float Other Doc Expr) (results : JobResults)
    (cols : List ExportColumn) (failedOnly : Bool) : CsvFile :=
  { header := headers cols, lines := (results.fileRows failedOnly).map (results.line lib cols) }

theorem fileRows_eq (results : JobResults) (failedOnly : Bool) :
    results.fileRows failedOnly = results.rows.filter (fun stored =>
      decide (0 ≤ stored.index) && stored.exported failedOnly) := by
  apply List.filter_congr
  intro stored _member
  rw [decide_eq_decide.mpr (show (-1 : Int) < stored.index ↔ 0 ≤ stored.index by omega)]

theorem csvFile_records (results : JobResults) (cols : List ExportColumn) (failedOnly : Bool) :
    goCsv comma (results.csvFile lib cols failedOnly).text =
      { records := readLine (headers cols) ::
          (results.fileRows failedOnly).map (fun stored => readLine (results.line lib cols stored))
        err := none } := by
  have wideLines : ∀ line ∈ (results.csvFile lib cols failedOnly).lines, 3 ≤ line.length := by
    intro line member
    obtain ⟨stored, _, same⟩ := List.mem_map.mp member
    rw [← same]
    exact Nat.le_add_left 3 _
  have read := CsvFile.goCsv_text (results.csvFile lib cols failedOnly)
    (Nat.le_add_left 3 _) wideLines
  rw [read]
  unfold JobResults.csvFile
  rw [List.map_map]
  rfl

theorem csvFile_parses (results : JobResults) (cols : List ExportColumn) (failedOnly : Bool) :
    ∃ start rows,
      Parses (csvConnector CsvContent.read (some true)
        (goCsv comma (results.csvFile lib cols failedOnly).text)) start rows ∧
      List.Forall₂ (ReadsBack lib results cols) (results.fileRows failedOnly) rows := by
  obtain ⟨rows, data, taken⟩ := @take_csv { records := [] } (readLine (headers cols))
    ((results.fileRows failedOnly).map (fun stored => readLine (results.line lib cols stored)))
    none 0
  rw [List.map_map] at data
  have lengths := congrArg List.length data
  rw [List.length_map, List.length_map] at lengths
  rw [List.length_map, ← lengths] at taken
  refine ⟨{ reader := { records := _ }, header := readLine (headers cols) }, rows, ⟨?_, taken⟩, ?_⟩
  · rw [csvFile_records]
    rfl
  · have paired := List.forall₂_eq_eq_eq ▸ data.symm
    rw [List.forall₂_map_left_iff, List.forall₂_map_right_iff] at paired
    exact paired.imp (fun _ _ same => readsBack_of_data same.symm)

/-- The file of an export that does not fail has the header and a line for each stored
row from index zero on, and the connector of a job reads it to its end as these. -/
theorem results_text_reads_back (env : ExportEnv) (results : JobResults)
    (cols : List ExportColumn) (failedOnly : Bool) :
    (∃ message, writeResultsCSV lib env results cols failedOnly (results.rows.length + 1) =
        some (.error message) ∧
      ((∃ n, env.queryFails failedOnly n = some message) ∨
        env.fileFails failedOnly = some message)) ∨
    ∃ file start rows,
      writeResultsCSV lib env results cols failedOnly (results.rows.length + 1) =
        some (.ok (file, rows.length)) ∧
      goCsv comma file.text =
        { records := readLine (headers cols) :: (results.rows.filter (fun stored =>
            decide (0 ≤ stored.index) && stored.exported failedOnly)).map
              (fun stored => readLine (results.line lib cols stored))
          err := none } ∧
      Parses (csvConnector CsvContent.read (some true) (goCsv comma file.text)) start rows ∧
      List.Forall₂ (ReadsBack lib results cols) (results.rows.filter (fun stored =>
        decide (0 ≤ stored.index) && stored.exported failedOnly)) rows := by
  obtain ⟨start, rows, parses, same⟩ :=
    @csvFile_parses Float Other Doc Expr lib results cols failedOnly
  rcases @writeResultsCSV_spec Float Other Doc Expr lib env results cols failedOnly with
    failed | wrote
  · exact .inl failed
  · rw [same.length_eq] at wrote
    rw [fileRows_eq] at same
    refine .inr ⟨_, start, rows, wrote, ?_, parses, same⟩
    rw [← fileRows_eq]
    exact csvFile_records results cols failedOnly

end Exported

end MigrationPlatform.Workflow
