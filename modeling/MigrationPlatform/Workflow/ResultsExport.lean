/-
The results of a job as CSV files.

`ExportJobResults` pages through the rows of a job by their index and joins the
responses of the steps to each page. A file is written twice, once with all rows and
once with those that failed or are unresolved. What the JSON and JSONPath libraries
make of a response is a parameter, and so is what fails.
-/

import MigrationPlatform.Foundation.CursorPaging
import MigrationPlatform.Workflow.RowStore

namespace MigrationPlatform.Workflow

open MigrationPlatform.Connectors

inductive Printed (Float Other : Type)
  | nil
  | text (value : String)
  | bool (value : Bool)
  | number (literal : String)
  | float64 (value : Float)
  | integer (value : Int)
  | raw (json : String)
  | other (value : Other)
deriving DecidableEq

/-- What `encoding/json`, `strconv` and the JSONPath library answer. -/
structure ExportLibrary (Float Other Doc Expr : Type) where
  formatFloat : Float → String
  marshal : Other → Option String
  sprint : Other → String
  list : List (Printed Float Other) → Other
  unmarshal : Data → Option (List (String × Printed Float Other))
  parse : String → Option Doc
  parsePath : String → Option Expr
  get : Expr → Doc → List (Printed Float Other)

structure ExportColumn where
  name : String
  source : String := ""
  fromResponse : String := ""
  path : String := ""
deriving DecidableEq, Repr

structure ExportRow (Float Other : Type) where
  index : Int
  status : String
  error : String
  source : Option (List (String × Printed Float Other))
  responses : String → Option String

def ExportColumn.step (c : ExportColumn) : String :=
  if c.fromResponse = "" then "main" else c.fromResponse

section Cells

variable {Float Other Doc Expr : Type} (lib : ExportLibrary Float Other Doc Expr)

def stringify : Printed Float Other → String
  | .nil => ""
  | .text value => value
  | .bool value => if value = true then "true" else "false"
  | .number literal => literal
  | .float64 value => lib.formatFloat value
  | .integer value => toString value
  | .raw json => json
  | .other value => (lib.marshal value).getD (lib.sprint value)

def responseCell (path raw : String) : String :=
  if raw = "" then ""
  else
    match lib.parse raw with
    | none => ""
    | some doc =>
        match lib.parsePath path with
        | none => ""
        | some expr =>
            match lib.get expr doc with
            | [] => ""
            | [hit] => stringify lib hit
            | hits => stringify lib (.other (lib.list hits))

def sourceCell (source : Option (List (String × Printed Float Other))) (name : String) : String :=
  match source with
  | none => ""
  | some fields => stringify lib ((fields.lookup name).getD .nil)

def cell (row : ExportRow Float Other) (c : ExportColumn) : String :=
  if c.source ≠ "" then sourceCell lib row.source c.source
  else if c.path = "" then ""
  else
    match row.responses c.step with
    | none => ""
    | some raw => responseCell lib c.path raw

def namedColumns (cols : List ExportColumn) : List ExportColumn :=
  cols.filter (fun c => decide (c.name ≠ ""))

def headers (cols : List ExportColumn) : List String :=
  ["row_index", "status", "error"] ++ (namedColumns cols).map ExportColumn.name

def project (row : ExportRow Float Other) (cols : List ExportColumn) : List String :=
  [toString row.index, row.status, row.error] ++ (namedColumns cols).map (cell lib row)

end Cells

/-- What a job keeps in `job_rows` and `job_row_steps`. The steps stand in the order
in which the database answers them. -/
structure JobResults where
  rows : List StoredRow
  ascending : (rows.map StoredRow.index).Pairwise (· < ·)
  steps : List StoredStep

def exportPageSize : Nat := 1000

def StepStatus.text : StepStatus → String
  | .succeeded => "succeeded"
  | .failed => "failed"
  | .unresolved => "unresolved"

def StoredRow.exported (failedOnly : Bool) (row : StoredRow) : Bool :=
  !failedOnly || decide (row.status = .failed ∨ row.status = .unresolved)

section Pages

variable {Float Other Doc Expr : Type} (lib : ExportLibrary Float Other Doc Expr)

def StoredRow.scanned (row : StoredRow) : ExportRow Float Other :=
  { index := row.index
    status := row.status.text
    error := row.lastError.getD ""
    source := row.rowJSON.bind lib.unmarshal
    responses := fun name =>
      if name = "main" ∧ row.responseJSON ≠ "" then some row.responseJSON else none }

/-- The response of a step, which replaces one of the same name. -/
def ExportRow.answered (row : ExportRow Float Other) (step : StoredStep) : ExportRow Float Other :=
  if row.index = step.rowIndex ∧ step.responseJSON ≠ "" then
    { row with responses := fun name =>
        if name = step.stepName then some step.responseJSON else row.responses name }
  else row

def loadExportPage (results : JobResults) (after : Int) (failedOnly : Bool) :
    List (ExportRow Float Other) :=
  let rows := (results.rows.filter (fun row =>
    decide (after < row.index) && row.exported failedOnly)).take exportPageSize
  let page := rows.map (StoredRow.scanned lib)
  match rows.head?, rows.getLast? with
  | some first, some last =>
      let stepRows := results.steps.filter (fun step =>
        decide (first.index ≤ step.rowIndex) && decide (step.rowIndex ≤ last.index))
      stepRows.foldl (fun page step => page.map (fun row => row.answered step)) page
  | _, _ => page

/-- What fails. `queryFails` numbers the pages of a file, and `fileFails` is the writing
or the upload of a file. -/
structure ExportEnv where
  bucketVariable : String := ""
  jobFails : Option String := none
  queryFails : Bool → Nat → Option String := fun _ _ => none
  fileFails : Bool → Option String := fun _ => none
  recordFails : Option String := none

structure ExportTemplate where
  steps : List String
  columns : Option (List ExportColumn)

def ExportTemplate.executionSteps (template : ExportTemplate) : List String :=
  if template.steps = [] then ["main"] else template.steps

structure CsvFile where
  header : List String
  lines : List (List String) := []
deriving DecidableEq, Repr

structure ResultsRef where
  bucket : String
  key : String
  failedKey : String
  rows : Nat
  failedRows : Nat
deriving DecidableEq, Repr

structure Exported where
  all : CsvFile
  failed : CsvFile
  ref : ResultsRef
deriving DecidableEq, Repr

structure ExportState where
  after : Int := -1
  written : Nat := 0
  lines : List (List String) := []
  pages : Nat := 0

def writePage (cols : List ExportColumn) (s : ExportState) :
    List (ExportRow Float Other) → ExportState
  | [] => s
  | row :: rest =>
      writePage cols
        { s with after := row.index, written := s.written + 1, lines := s.lines ++ [project lib row cols] }
        rest

/-- The loop over the pages; `none` when the fuel is out. -/
def writePages (env : ExportEnv) (results : JobResults) (cols : List ExportColumn)
    (failedOnly : Bool) : Nat → ExportState → Option (Except String ExportState)
  | 0, _ => none
  | fuel + 1, s =>
      match env.queryFails failedOnly s.pages with
      | some message => some (.error message)
      | none =>
          let page := loadExportPage lib results s.after failedOnly
          if page = [] then some (.ok s)
          else
            let later := writePage lib cols { s with pages := s.pages + 1 } page
            if page.length < exportPageSize then some (.ok later)
            else writePages env results cols failedOnly fuel later

def writeResultsCSV (env : ExportEnv) (results : JobResults) (cols : List ExportColumn)
    (failedOnly : Bool) (fuel : Nat) : Option (Except String (CsvFile × Nat)) :=
  match writePages lib env results cols failedOnly fuel {} with
  | none => none
  | some (.error message) => some (.error message)
  | some (.ok s) =>
      match env.fileFails failedOnly with
      | some message => some (.error message)
      | none => some (.ok ({ header := headers cols, lines := s.lines }, s.written))

/-- The template is `none` where `LoadTemplate` failed. -/
def exportColumns (template : Option ExportTemplate) : List ExportColumn :=
  (template.bind ExportTemplate.columns).getD []

def exportJobResults (env : ExportEnv) (jobID : Int) (results : JobResults)
    (template : Option ExportTemplate) (fuel : Nat) : Option (Except String Exported) :=
  match env.jobFails with
  | some message => some (.error ("load job for export: " ++ message))
  | none =>
      let cols := exportColumns template
      match writeResultsCSV lib env results cols false fuel with
      | none => none
      | some (.error message) => some (.error message)
      | some (.ok (all, allCount)) =>
          match writeResultsCSV lib env results cols true fuel with
          | none => none
          | some (.error message) => some (.error message)
          | some (.ok (failed, failedCount)) =>
              match env.recordFails with
              | some message => some (.error message)
              | none =>
                  some (.ok
                    { all := all
                      failed := failed
                      ref :=
                        { bucket := if env.bucketVariable = "" then "migration" else env.bucketVariable
                          key := "jobs/" ++ toString jobID ++ "/results.csv"
                          failedKey := "jobs/" ++ toString jobID ++ "/results-failed.csv"
                          rows := allCount
                          failedRows := failedCount } })

end Pages

/-! ### A complete export -/

section Specification

variable {Float Other Doc Expr : Type} (lib : ExportLibrary Float Other Doc Expr)

def StoredStep.Answers (step : StoredStep) (row : StoredRow) (name : String) : Prop :=
  step.rowIndex = row.index ∧ step.stepName = name ∧ step.responseJSON ≠ ""

/-- The responses of a step that are stored for a row: one in `job_row_steps`, and the
response of the row where the template has no other step. -/
def StoredResponse (results : JobResults) (template : ExportTemplate) (row : StoredRow)
    (name body : String) : Prop :=
  (∃ step ∈ results.steps, step.Answers row name ∧ step.responseJSON = body) ∨
    (template.executionSteps = [name] ∧ row.responseJSON = body ∧ body ≠ "")

def ExportColumn.IsResponse (c : ExportColumn) : Prop := c.source = "" ∧ c.path ≠ ""

/-- The text of a cell, where its column names a step of the template. -/
def CellOf (results : JobResults) (template : Option ExportTemplate) (row : StoredRow)
    (c : ExportColumn) (text : String) : Prop :=
  (c.source ≠ "" → text = sourceCell lib (row.rowJSON.bind lib.unmarshal) c.source) ∧
    ∀ loaded, template = some loaded → c.IsResponse → c.step ∈ loaded.executionSteps →
      (∃ body, StoredResponse results loaded row c.step body ∧ text = responseCell lib c.path body) ∨
        ((∀ body, ¬StoredResponse results loaded row c.step body) ∧ text = "")

def LineOf (results : JobResults) (template : Option ExportTemplate) (row : StoredRow)
    (line : List String) : Prop :=
  ∃ cells, line = [toString row.index, row.status.text, row.lastError.getD ""] ++ cells ∧
    List.Forall₂ (CellOf lib results template row) (namedColumns (exportColumns template)) cells

structure Exported.Complete (results : JobResults) (template : Option ExportTemplate)
    (exported : Exported) : Prop where
  all : List.Forall₂ (LineOf lib results template) results.rows exported.all.lines
  failed : List.Forall₂ (LineOf lib results template)
    (results.rows.filter (fun row => decide (row.status = .failed ∨ row.status = .unresolved)))
    exported.failed.lines
  counts : exported.ref.rows = exported.all.lines.length ∧
    exported.ref.failedRows = exported.failed.lines.length
  widths : (∀ line ∈ exported.all.lines, line.length = exported.all.header.length) ∧
    ∀ line ∈ exported.failed.lines, line.length = exported.failed.header.length

/-- No row lies below zero, and the row's own response stands in for a step only where it
is that step's, or says nothing. -/
structure Exportable (results : JobResults) (template : Option ExportTemplate) : Prop where
  indexes : ∀ row ∈ results.rows, 0 ≤ row.index
  responses : ∀ loaded, template = some loaded → ∀ row ∈ results.rows,
    ∀ c ∈ namedColumns (exportColumns template), c.IsResponse → c.step ∈ loaded.executionSteps →
      (∃ step ∈ results.steps, step.Answers row c.step) ∨
        (c.step = "main" ↔ loaded.executionSteps = [c.step]) ∨
        responseCell lib c.path row.responseJSON = ""

end Specification

section Rows

variable {Float Other Doc Expr : Type} {lib : ExportLibrary Float Other Doc Expr}

theorem answered_columns (row : ExportRow Float Other) (step : StoredStep) :
    (row.answered step).index = row.index ∧ (row.answered step).status = row.status ∧
      (row.answered step).error = row.error ∧ (row.answered step).source = row.source := by
  unfold ExportRow.answered
  split
  · exact ⟨rfl, rfl, rfl, rfl⟩
  · exact ⟨rfl, rfl, rfl, rfl⟩

def JobResults.exportRow (lib : ExportLibrary Float Other Doc Expr) (results : JobResults)
    (row : StoredRow) : ExportRow Float Other :=
  results.steps.foldl ExportRow.answered (row.scanned lib)

theorem exportRow_columns (results : JobResults) (row : StoredRow) :
    (results.exportRow lib row).index = row.index ∧
      (results.exportRow lib row).status = row.status.text ∧
      (results.exportRow lib row).error = row.lastError.getD "" ∧
      (results.exportRow lib row).source = row.rowJSON.bind lib.unmarshal := by
  have kept : ∀ (steps : List StoredStep) (own : ExportRow Float Other),
      (steps.foldl ExportRow.answered own).index = own.index ∧
        (steps.foldl ExportRow.answered own).status = own.status ∧
        (steps.foldl ExportRow.answered own).error = own.error ∧
        (steps.foldl ExportRow.answered own).source = own.source := by
    intro steps
    induction steps with
    | nil =>
        intro own
        exact ⟨rfl, rfl, rfl, rfl⟩
    | cons step rest ih =>
        intro own
        obtain ⟨ownIndex, ownStatus, ownError, ownSource⟩ := answered_columns own step
        obtain ⟨index, status, error, source⟩ := ih (own.answered step)
        exact ⟨index.trans ownIndex, status.trans ownStatus, error.trans ownError,
          source.trans ownSource⟩
  exact kept results.steps (row.scanned lib)

private theorem foldl_answered_map (steps : List StoredStep) :
    ∀ page : List (ExportRow Float Other),
      steps.foldl (fun page step => page.map (fun row => row.answered step)) page =
        page.map (fun row => steps.foldl ExportRow.answered row) := by
  induction steps with
  | nil =>
      intro page
      exact (List.map_id page).symm
  | cons step rest ih =>
      intro page
      rw [List.foldl_cons, ih, List.map_map]
      rfl

private theorem foldl_answered_filter (kept : StoredStep → Bool) (steps : List StoredStep) :
    ∀ row : ExportRow Float Other, (∀ step, step.rowIndex = row.index → kept step = true) →
      (steps.filter kept).foldl ExportRow.answered row = steps.foldl ExportRow.answered row := by
  induction steps with
  | nil =>
      intro row _own
      rfl
  | cons step rest ih =>
      intro row own
      have later : ∀ other, other.rowIndex = (row.answered step).index → kept other = true := by
        intro other same
        rw [(answered_columns row step).1] at same
        exact own other same
      rw [List.foldl_cons, List.filter_cons]
      by_cases keeps : kept step = true
      · rw [if_pos keeps, List.foldl_cons]
        exact ih _ later
      · have foreign : row.answered step = row := by
          unfold ExportRow.answered
          rw [if_neg]
          intro both
          exact keeps (own step both.1.symm)
        rw [if_neg keeps, foreign]
        exact ih row own

def JobResults.exportedAfter (results : JobResults) (failedOnly : Bool) (after : Int) :
    List StoredRow :=
  results.rows.filter (fun row => decide (after < row.index) && row.exported failedOnly)

theorem exportedAfter_ascending (results : JobResults) (failedOnly : Bool) (after : Int) :
    ((results.exportedAfter failedOnly after).map StoredRow.index).Pairwise (· < ·) :=
  results.ascending.sublist (List.filter_sublist.map _)

theorem loadExportPage_eq (results : JobResults) (after : Int) (failedOnly : Bool) :
    loadExportPage lib results after failedOnly =
      ((results.exportedAfter failedOnly after).take exportPageSize).map (results.exportRow lib) := by
  unfold loadExportPage
  rw [← JobResults.exportedAfter]
  dsimp only
  have order : (((results.exportedAfter failedOnly after).take exportPageSize).map
      StoredRow.index).Pairwise (· < ·) :=
    (exportedAfter_ascending results failedOnly after).sublist ((List.take_sublist _ _).map _)
  generalize (results.exportedAfter failedOnly after).take exportPageSize = rows at order ⊢
  cases rows with
  | nil => rfl
  | cons first rest =>
      rw [List.head?_cons]
      cases ends : (first :: rest).getLast? with
      | none => exact absurd (List.getLast?_eq_none_iff.mp ends) (List.cons_ne_nil _ _)
      | some last =>
          dsimp only
          rw [foldl_answered_map, List.map_map]
          apply List.map_congr_left
          intro row member
          apply foldl_answered_filter
          intro step own
          have same : step.rowIndex = row.index := own
          have lower : first.index ≤ row.index := by
            rcases List.mem_cons.mp member with head | behind
            · exact le_of_eq (congrArg StoredRow.index head.symm)
            · exact le_of_lt ((List.pairwise_cons.mp order).1 row.index (List.mem_map_of_mem behind))
          have upper : row.index ≤ last.index := by
            obtain ⟨front, shape⟩ := List.getLast?_eq_some_iff.mp ends
            rw [shape] at member order
            rw [List.map_append] at order
            rcases List.mem_append.mp member with earlier | final
            · exact le_of_lt ((List.pairwise_append.mp order).2.2 row.index
                (List.mem_map_of_mem earlier) last.index List.mem_cons_self)
            · exact le_of_eq (congrArg StoredRow.index (List.mem_singleton.mp final))
          rw [same, decide_eq_true lower, decide_eq_true upper]
          rfl

end Rows

section Lines

variable {Float Other Doc Expr : Type} {lib : ExportLibrary Float Other Doc Expr}

theorem writePage_spec (cols : List ExportColumn) (page : List (ExportRow Float Other)) :
    ∀ s : ExportState,
      (writePage lib cols s page).after = ((page.map ExportRow.index).getLast?).getD s.after ∧
      (writePage lib cols s page).written = s.written + page.length ∧
      (writePage lib cols s page).lines = s.lines ++ page.map (fun row => project lib row cols) ∧
      (writePage lib cols s page).pages = s.pages := by
  induction page with
  | nil =>
      intro s
      exact ⟨rfl, rfl, (List.append_nil _).symm, rfl⟩
  | cons row rest ih =>
      intro s
      obtain ⟨after, written, lines, pages⟩ := ih
        { s with
          after := row.index
          written := s.written + 1
          lines := s.lines ++ [project lib row cols] }
      unfold writePage
      refine ⟨?_, ?_, ?_, pages⟩
      · rw [after, List.map_cons]
        cases shape : rest.map ExportRow.index with
        | nil => rfl
        | cons first others => rw [List.getLast?_cons_cons, List.getLast?_cons]; rfl
      · rw [written, List.length_cons]
        dsimp only
        omega
      · rw [lines, List.map_cons, List.append_assoc]
        rfl

private theorem exportedAfter_behind (results : JobResults) (failedOnly : Bool) {after : Int}
    {last : StoredRow}
    (ends : ((results.exportedAfter failedOnly after).take exportPageSize).getLast? = some last) :
    results.exportedAfter failedOnly last.index =
      (results.exportedAfter failedOnly after).drop exportPageSize := by
  have beyond : after < last.index := by
    have member := List.mem_of_mem_take (List.mem_of_getLast? ends)
    have passed := (List.mem_filter.mp member).2
    rw [Bool.and_eq_true] at passed
    exact of_decide_eq_true passed.1
  rw [← CursorPaging.filter_above_last (exportedAfter_ascending results failedOnly after) ends]
  unfold JobResults.exportedAfter
  rw [List.filter_filter]
  apply List.filter_congr
  intro row _member
  by_cases higher : last.index < row.index
  · rw [decide_eq_true higher, decide_eq_true (lt_trans beyond higher), Bool.true_and,
      Bool.true_and]
  · rw [decide_eq_false higher, Bool.false_and, Bool.false_and]

theorem writePages_spec (env : ExportEnv) (results : JobResults) (cols : List ExportColumn)
    (failedOnly : Bool) (fuel : Nat) :
    ∀ s : ExportState, (results.exportedAfter failedOnly s.after).length < fuel →
      (∃ message, writePages lib env results cols failedOnly fuel s = some (.error message) ∧
        ∃ n, env.queryFails failedOnly n = some message) ∨
      ∃ last, writePages lib env results cols failedOnly fuel s = some (.ok last) ∧
        last.written = s.written + (results.exportedAfter failedOnly s.after).length ∧
        last.lines = s.lines ++ (results.exportedAfter failedOnly s.after).map
          (fun row => project lib (results.exportRow lib row) cols) := by
  induction fuel with
  | zero =>
      intro s few
      exact absurd few (Nat.not_lt_zero _)
  | succ fuel ih =>
      intro s few
      unfold writePages
      cases query : env.queryFails failedOnly s.pages with
      | some message => exact .inl ⟨message, rfl, s.pages, query⟩
      | none =>
          dsimp only
          rw [loadExportPage_eq]
          by_cases empty : results.exportedAfter failedOnly s.after = []
          · rw [empty]
            exact .inr ⟨s, rfl, rfl, (List.append_nil _).symm⟩
          · have nonempty : (results.exportedAfter failedOnly s.after).take exportPageSize ≠ [] := by
              intro none_taken
              rcases List.take_eq_nil_iff.mp none_taken with zero | nil
              · exact absurd zero (by decide)
              · exact empty nil
            rw [if_neg (fun mapped => nonempty (List.map_eq_nil_iff.mp mapped))]
            obtain ⟨after, written, lines, pages⟩ := @writePage_spec Float Other Doc Expr lib cols
              (((results.exportedAfter failedOnly s.after).take exportPageSize).map
                (results.exportRow lib)) { s with pages := s.pages + 1 }
            rw [List.length_map] at written
            rw [List.map_map] at lines
            rw [List.length_map]
            split
            · rename_i short
              right
              have whole : (results.exportedAfter failedOnly s.after).take exportPageSize =
                  results.exportedAfter failedOnly s.after := by
                apply List.take_of_length_le
                rw [List.length_take] at short
                omega
              rw [whole] at written lines
              exact ⟨_, rfl, by rw [whole]; exact written, by rw [whole]; exact lines⟩
            · rename_i full
              have ends : ∃ last : StoredRow, ((results.exportedAfter failedOnly s.after).take
                  exportPageSize).getLast? = some last :=
                Option.isSome_iff_exists.mp (List.getLast?_isSome.mpr nonempty)
              obtain ⟨row, ends⟩ := ends
              have cursor : (writePage lib cols { s with pages := s.pages + 1 }
                  (((results.exportedAfter failedOnly s.after).take exportPageSize).map
                    (results.exportRow lib))).after = row.index := by
                rw [after, List.map_map, List.getLast?_map, ends]
                exact (exportRow_columns results row).1
              have rest := exportedAfter_behind results failedOnly ends
              rw [← cursor] at rest
              rw [List.length_take] at full
              have fewer : (results.exportedAfter failedOnly (writePage lib cols
                  { s with pages := s.pages + 1 } (((results.exportedAfter failedOnly s.after).take
                    exportPageSize).map (results.exportRow lib))).after).length < fuel := by
                rw [rest, List.length_drop]
                have positive : 0 < exportPageSize := by decide
                omega
              rcases ih _ fewer with failure | ⟨last, ran, allWritten, allLines⟩
              · exact .inl failure
              · refine .inr ⟨last, ran, ?_, ?_⟩
                · rw [allWritten, written, rest, List.length_drop, List.length_take]
                  dsimp only
                  omega
                · have parts := List.take_append_drop exportPageSize
                    (results.exportedAfter failedOnly s.after)
                  rw [allLines, lines, rest, List.append_assoc]
                  congr 1
                  conv => rhs; rw [← parts, List.map_append]
                  rfl

def JobResults.fileRows (results : JobResults) (failedOnly : Bool) : List StoredRow :=
  results.exportedAfter failedOnly (-1)

def JobResults.line (lib : ExportLibrary Float Other Doc Expr) (results : JobResults)
    (cols : List ExportColumn) (row : StoredRow) : List String :=
  project lib (results.exportRow lib row) cols

theorem writeResultsCSV_spec (env : ExportEnv) (results : JobResults) (cols : List ExportColumn)
    (failedOnly : Bool) :
    (∃ message, writeResultsCSV lib env results cols failedOnly (results.rows.length + 1) =
        some (.error message) ∧
      ((∃ n, env.queryFails failedOnly n = some message) ∨
        env.fileFails failedOnly = some message)) ∨
    writeResultsCSV lib env results cols failedOnly (results.rows.length + 1) =
      some (.ok ({ header := headers cols
                   lines := (results.fileRows failedOnly).map (results.line lib cols) },
        (results.fileRows failedOnly).length)) := by
  have enough : (results.exportedAfter failedOnly (-1)).length < results.rows.length + 1 :=
    Nat.lt_succ_of_le (List.length_filter_le _ _)
  unfold writeResultsCSV
  rcases @writePages_spec Float Other Doc Expr lib env results cols failedOnly
    (results.rows.length + 1) {} enough with ⟨message, ran, query⟩ | ⟨last, ran, written, lines⟩
  · rw [ran]
    exact .inl ⟨message, rfl, .inl query⟩
  · rw [ran]
    cases file : env.fileFails failedOnly with
    | some message => exact .inl ⟨message, rfl, .inr rfl⟩
    | none =>
        right
        have count : last.written = (results.fileRows failedOnly).length :=
          written.trans (Nat.zero_add _)
        have all : last.lines = (results.fileRows failedOnly).map (results.line lib cols) := lines
        dsimp only
        rw [count, all]

def ExportEnv.Succeeds (env : ExportEnv) : Prop :=
  env.jobFails = none ∧ (∀ failedOnly n, env.queryFails failedOnly n = none) ∧
    (∀ failedOnly, env.fileFails failedOnly = none) ∧ env.recordFails = none

def JobResults.exported (lib : ExportLibrary Float Other Doc Expr) (env : ExportEnv) (jobID : Int)
    (results : JobResults) (cols : List ExportColumn) : Exported :=
  { all := { header := headers cols, lines := (results.fileRows false).map (results.line lib cols) }
    failed := { header := headers cols, lines := (results.fileRows true).map (results.line lib cols) }
    ref :=
      { bucket := if env.bucketVariable = "" then "migration" else env.bucketVariable
        key := "jobs/" ++ toString jobID ++ "/results.csv"
        failedKey := "jobs/" ++ toString jobID ++ "/results-failed.csv"
        rows := (results.fileRows false).length
        failedRows := (results.fileRows true).length } }

theorem exportJobResults_spec (env : ExportEnv) (jobID : Int) (results : JobResults)
    (template : Option ExportTemplate) :
    ((∃ message, exportJobResults lib env jobID results template (results.rows.length + 1) =
        some (.error message)) ∧ ¬env.Succeeds) ∨
    exportJobResults lib env jobID results template (results.rows.length + 1) =
      some (.ok (results.exported lib env jobID (exportColumns template))) := by
  unfold exportJobResults
  cases job : env.jobFails with
  | some message =>
      refine .inl ⟨⟨_, rfl⟩, ?_⟩
      intro succeeds
      rw [succeeds.1] at job
      cases job
  | none =>
      dsimp only
      have file := fun failedOnly => @writeResultsCSV_spec Float Other Doc Expr lib env results
        (exportColumns template) failedOnly
      have failure : ∀ failedOnly message, ((∃ n, env.queryFails failedOnly n = some message) ∨
          env.fileFails failedOnly = some message) → ¬env.Succeeds := by
        intro failedOnly message failed succeeds
        rcases failed with ⟨n, query⟩ | written
        · rw [succeeds.2.1 failedOnly n] at query
          cases query
        · rw [succeeds.2.2.1 failedOnly] at written
          cases written
      rcases file false with ⟨message, ran, failed⟩ | ran
      · rw [ran]
        exact .inl ⟨⟨message, rfl⟩, failure _ message failed⟩
      · rw [ran]
        dsimp only
        rcases file true with ⟨message, ranFailed, failed⟩ | ranFailed
        · rw [ranFailed]
          exact .inl ⟨⟨message, rfl⟩, failure _ message failed⟩
        · rw [ranFailed]
          dsimp only
          cases recorded : env.recordFails with
          | some message =>
              refine .inl ⟨⟨message, rfl⟩, ?_⟩
              intro succeeds
              rw [succeeds.2.2.2] at recorded
              cases recorded
          | none => exact .inr rfl

end Lines

/-! ### The cells -/

section Responses

variable {Float Other Doc Expr : Type} {lib : ExportLibrary Float Other Doc Expr}

theorem foldl_answered_responses (steps : List StoredStep) (stored : StoredRow) (name : String) :
    ∀ row : ExportRow Float Other, row.index = stored.index →
      (∃ step ∈ steps, step.Answers stored name ∧
        (steps.foldl ExportRow.answered row).responses name = some step.responseJSON) ∨
      ((∀ step ∈ steps, ¬step.Answers stored name) ∧
        (steps.foldl ExportRow.answered row).responses name = row.responses name) := by
  induction steps with
  | nil =>
      intro row _own
      exact .inr ⟨List.forall_mem_nil _, rfl⟩
  | cons step rest ih =>
      intro row own
      rw [List.foldl_cons]
      rcases ih (row.answered step) ((answered_columns row step).1.trans own) with
        ⟨later, member, answers, found⟩ | ⟨silent, kept⟩
      · exact .inl ⟨later, List.mem_cons_of_mem _ member, answers, found⟩
      · rw [kept]
        unfold ExportRow.answered
        by_cases here : row.index = step.rowIndex ∧ step.responseJSON ≠ ""
        · rw [if_pos here]
          by_cases same : name = step.stepName
          · left
            refine ⟨step, List.mem_cons_self, ⟨here.1.symm.trans own, same.symm, here.2⟩, ?_⟩
            exact if_pos same
          · right
            refine ⟨?_, if_neg same⟩
            intro other member
            rcases List.mem_cons.mp member with head | behind
            · rw [head]
              exact fun answers => same answers.2.1.symm
            · exact silent other behind
        · rw [if_neg here]
          right
          refine ⟨?_, rfl⟩
          intro other member
          rcases List.mem_cons.mp member with head | behind
          · rw [head]
            exact fun answers => here ⟨own.trans answers.1.symm, answers.2.2⟩
          · exact silent other behind

private theorem exportRow_responses (results : JobResults) (row : StoredRow) (name : String) :
    (∃ step ∈ results.steps, step.Answers row name ∧
      (results.exportRow lib row).responses name = some step.responseJSON) ∨
    ((∀ step ∈ results.steps, ¬step.Answers row name) ∧
      (results.exportRow lib row).responses name =
        if name = "main" ∧ row.responseJSON ≠ "" then some row.responseJSON else none) :=
  foldl_answered_responses results.steps row name (row.scanned lib) rfl

private theorem cell_of_response {c : ExportColumn} (response : c.IsResponse)
    (row : ExportRow Float Other) :
    cell lib row c = ((row.responses c.step).map (responseCell lib c.path)).getD "" := by
  unfold cell
  rw [if_neg (not_not.mpr response.1), if_neg response.2]
  cases row.responses c.step with
  | none => rfl
  | some raw => rfl

theorem cell_of_source {c : ExportColumn} (source : c.source ≠ "") (results : JobResults)
    (row : StoredRow) :
    cell lib (results.exportRow lib row) c =
      sourceCell lib (row.rowJSON.bind lib.unmarshal) c.source := by
  unfold cell
  rw [if_pos source, (exportRow_columns results row).2.2.2]

theorem responseCell_stored_iff (results : JobResults) (template : ExportTemplate)
    (row : StoredRow) {c : ExportColumn} (response : c.IsResponse) :
    ((∃ body, StoredResponse results template row c.step body ∧
          cell lib (results.exportRow lib row) c = responseCell lib c.path body) ∨
        ((∀ body, ¬StoredResponse results template row c.step body) ∧
          cell lib (results.exportRow lib row) c = "")) ↔
      ((∃ step ∈ results.steps, step.Answers row c.step) ∨
        (c.step = "main" ↔ template.executionSteps = [c.step]) ∨
        responseCell lib c.path row.responseJSON = "") := by
  rw [cell_of_response response]
  rcases @exportRow_responses Float Other Doc Expr lib results row c.step with
    ⟨step, member, answers, found⟩ | ⟨silent, found⟩
  · rw [found]
    constructor
    · intro _stored
      exact .inl ⟨step, member, answers⟩
    · intro _condition
      exact .inl ⟨step.responseJSON, .inl ⟨step, member, answers, rfl⟩, rfl⟩
  · have own : ∀ body, StoredResponse results template row c.step body ↔
        template.executionSteps = [c.step] ∧ row.responseJSON = body ∧ body ≠ "" := by
      intro body
      constructor
      · rintro (⟨step, member, answers, _⟩ | only)
        · exact absurd answers (silent step member)
        · exact only
      · exact .inr
    have noStep : ¬∃ step ∈ results.steps, step.Answers row c.step := by
      rintro ⟨step, member, answers⟩
      exact silent step member answers
    have emptyCell : responseCell lib c.path "" = "" := rfl
    rw [found]
    simp only [own, noStep, false_or]
    by_cases empty : row.responseJSON = ""
    · rw [if_neg (fun both => both.2 empty), empty]
      refine ⟨fun _ => .inr emptyCell, fun _ => .inr ⟨?_, rfl⟩⟩
      rintro body ⟨_, same, filled⟩
      exact filled same.symm
    · by_cases named : c.step = "main"
      · rw [if_pos ⟨named, empty⟩]
        by_cases only : template.executionSteps = [c.step]
        · exact ⟨fun _ => .inl ⟨fun _ => only, fun _ => named⟩,
            fun _ => .inl ⟨row.responseJSON, ⟨only, rfl, empty⟩, rfl⟩⟩
        · constructor
          · rintro (⟨body, ⟨impossible, _⟩, _⟩ | ⟨_, shown⟩)
            · exact absurd impossible only
            · exact .inr shown
          · rintro (both | silentPath)
            · exact absurd (both.mp named) only
            · refine .inr ⟨?_, silentPath⟩
              rintro body ⟨impossible, _⟩
              exact only impossible
      · rw [if_neg (fun both => named both.1)]
        by_cases only : template.executionSteps = [c.step]
        · constructor
          · rintro (⟨body, ⟨_, same, _⟩, shown⟩ | ⟨noResponse, _⟩)
            · right
              rw [same]
              exact shown.symm
            · exact absurd ⟨only, rfl, empty⟩ (noResponse row.responseJSON)
          · rintro (both | silentPath)
            · exact absurd (both.mpr only) named
            · exact .inl ⟨row.responseJSON, ⟨only, rfl, empty⟩, silentPath.symm⟩
        · refine ⟨fun _ => .inl ⟨fun impossible => absurd impossible named,
            fun impossible => absurd impossible only⟩, fun _ => .inr ⟨?_, rfl⟩⟩
          rintro body ⟨impossible, _⟩
          exact only impossible

end Responses

section Files

variable {Float Other Doc Expr : Type} {lib : ExportLibrary Float Other Doc Expr}

theorem forall₂_map_same {α β : Type} {related : α → β → Prop} {f : α → β} {items : List α} :
    List.Forall₂ related items (items.map f) ↔ ∀ item ∈ items, related item (f item) := by
  rw [List.forall₂_map_right_iff, List.forall₂_same]

private theorem cellOf_iff (results : JobResults) (template : Option ExportTemplate)
    (row : StoredRow)
    (c : ExportColumn) :
    CellOf lib results template row c (cell lib (results.exportRow lib row) c) ↔
      ∀ loaded, template = some loaded → c.IsResponse → c.step ∈ loaded.executionSteps →
        (∃ step ∈ results.steps, step.Answers row c.step) ∨
          (c.step = "main" ↔ loaded.executionSteps = [c.step]) ∨
          responseCell lib c.path row.responseJSON = "" := by
  unfold CellOf
  rw [and_iff_right (fun source => cell_of_source source results row)]
  constructor
  · intro holds loaded isLoaded response named
    exact (responseCell_stored_iff results loaded row response).mp
      (holds loaded isLoaded response named)
  · intro holds loaded isLoaded response named
    exact (responseCell_stored_iff results loaded row response).mpr
      (holds loaded isLoaded response named)

private theorem lineOf_iff (results : JobResults) (template : Option ExportTemplate)
    (row : StoredRow) :
    LineOf lib results template row (results.line lib (exportColumns template) row) ↔
      ∀ c ∈ namedColumns (exportColumns template),
        CellOf lib results template row c (cell lib (results.exportRow lib row) c) := by
  obtain ⟨index, status, error, _⟩ := @exportRow_columns Float Other Doc Expr lib results row
  have shape : results.line lib (exportColumns template) row =
      [toString row.index, row.status.text, row.lastError.getD ""] ++
        (namedColumns (exportColumns template)).map (cell lib (results.exportRow lib row)) := by
    unfold JobResults.line project
    rw [index, status, error]
  unfold LineOf
  rw [shape, ← forall₂_map_same]
  constructor
  · intro stated
    obtain ⟨cells, same, related⟩ := stated
    rw [List.append_cancel_left same]
    exact related
  · intro related
    exact ⟨_, rfl, related⟩

theorem fileRows_of_indexes {results : JobResults} (indexes : ∀ row ∈ results.rows, 0 ≤ row.index) :
    results.fileRows false = results.rows ∧
      results.fileRows true =
        results.rows.filter (fun row => decide (row.status = .failed ∨ row.status = .unresolved)) := by
  have behind : ∀ row ∈ results.rows, decide ((-1 : Int) < row.index) = true := by
    intro row member
    have natural := indexes row member
    apply decide_eq_true
    omega
  constructor
  · apply List.filter_eq_self.mpr
    intro row member
    rw [behind row member]
    rfl
  · apply List.filter_congr
    intro row member
    rw [behind row member]
    rfl

private theorem indexes_of_fileRows {results : JobResults}
    (whole : results.rows.length = (results.fileRows false).length) :
    ∀ row ∈ results.rows, 0 ≤ row.index := by
  intro row member
  have kept := List.length_filter_eq_length_iff.mp whole.symm row member
  rw [Bool.and_eq_true, decide_eq_true_eq] at kept
  have above := kept.1
  omega

theorem line_length (results : JobResults) (cols : List ExportColumn) (row : StoredRow) :
    (results.line lib cols row).length = (headers cols).length := by
  unfold JobResults.line project headers
  rw [List.length_append, List.length_append, List.length_map, List.length_map]
  rfl

theorem exported_complete_iff (env : ExportEnv) (jobID : Int) (results : JobResults)
    (template : Option ExportTemplate) :
    (results.exported lib env jobID (exportColumns template)).Complete lib results template ↔
      Exportable lib results template := by
  have lines : (∀ row ∈ results.rows,
      LineOf lib results template row (results.line lib (exportColumns template) row)) ↔
      ∀ loaded, template = some loaded → ∀ row ∈ results.rows,
        ∀ c ∈ namedColumns (exportColumns template), c.IsResponse →
          c.step ∈ loaded.executionSteps →
          (∃ step ∈ results.steps, step.Answers row c.step) ∨
            (c.step = "main" ↔ loaded.executionSteps = [c.step]) ∨
            responseCell lib c.path row.responseJSON = "" := by
    simp only [lineOf_iff, cellOf_iff]
    exact ⟨fun holds loaded isLoaded row member c column =>
        holds row member c column loaded isLoaded,
      fun holds row member c column loaded isLoaded =>
        holds loaded isLoaded row member c column⟩
  constructor
  · intro complete
    have all := complete.all
    have indexes := indexes_of_fileRows
      (all.length_eq.trans (List.length_map (results.line lib (exportColumns template))))
    refine ⟨indexes, lines.mp (forall₂_map_same.mp ?_)⟩
    have shape : (results.exported lib env jobID (exportColumns template)).all.lines =
        results.rows.map (results.line lib (exportColumns template)) :=
      congrArg (List.map _) (fileRows_of_indexes indexes).1
    rw [← shape]
    exact all
  · intro exportable
    obtain ⟨allRows, failedRows⟩ := fileRows_of_indexes exportable.indexes
    have each := lines.mpr exportable.responses
    refine ⟨?_, ?_, ⟨?_, ?_⟩, ?_, ?_⟩
    · unfold JobResults.exported
      rw [allRows]
      exact forall₂_map_same.mpr each
    · unfold JobResults.exported
      rw [failedRows]
      apply forall₂_map_same.mpr
      intro row member
      exact each row (List.mem_filter.mp member).1
    · exact (List.length_map _).symm
    · exact (List.length_map _).symm
    · intro line member
      obtain ⟨row, _, rfl⟩ := List.mem_map.mp member
      exact line_length results _ row
    · intro line member
      obtain ⟨row, _, rfl⟩ := List.mem_map.mp member
      exact line_length results _ row

/-- An export ends, without an error if nothing fails, and its files are complete exactly
where the results are exportable. -/
theorem exportJobResults_complete_iff (lib : ExportLibrary Float Other Doc Expr) (env : ExportEnv)
    (jobID : Int) (results : JobResults) (template : Option ExportTemplate) :
    ∃ outcome, exportJobResults lib env jobID results template (results.rows.length + 1) =
        some outcome ∧
      (env.Succeeds → ∃ exported, outcome = .ok exported) ∧
      ∀ exported, outcome = .ok exported →
        (exported.Complete lib results template ↔ Exportable lib results template) := by
  rcases @exportJobResults_spec Float Other Doc Expr lib env jobID results template with
    ⟨⟨message, ran⟩, fails⟩ | ran
  · refine ⟨_, ran, fun succeeds => absurd succeeds fails, ?_⟩
    intro exported impossible
    cases impossible
  · refine ⟨_, ran, fun _ => ⟨_, rfl⟩, ?_⟩
    intro exported same
    cases same
    exact exported_complete_iff env jobID results template

end Files

def stringLibrary : ExportLibrary Unit Unit String Unit where
  formatFloat := fun _ => "0"
  marshal := fun _ => some "[]"
  sprint := fun _ => "[]"
  list := fun _ => ()
  unmarshal := fun _ => none
  parse := fun raw => if raw = "\"c-9\"" then some "c-9" else none
  parsePath := fun path => if path = "$" then some () else none
  get := fun _ doc => [.text doc]

def createChain : ExportTemplate :=
  { steps := ["create"]
    columns := some [{ name := "id", fromResponse := "create", path := "$" }] }

def createdResults : JobResults where
  rows := [{ index := 0, status := .succeeded, responseJSON := "\"c-9\"" }]
  ascending := List.pairwise_singleton _ _
  steps := []

theorem createdResults_incomplete :
    exportJobResults stringLibrary {} 7 createdResults (some createChain) 2 =
        some (.ok (createdResults.exported stringLibrary {} 7 (exportColumns (some createChain)))) ∧
      (createdResults.exported stringLibrary {} 7 (exportColumns (some createChain))).all.lines =
        [["0", "succeeded", "", ""]] ∧
      ¬(createdResults.exported stringLibrary {} 7
        (exportColumns (some createChain))).Complete stringLibrary createdResults
          (some createChain) := by
  refine ⟨rfl, rfl, ?_⟩
  intro complete
  have exportable := (exported_complete_iff {} 7 createdResults (some createChain)).mp complete
  rcases exportable.responses createChain rfl _ List.mem_cons_self _ List.mem_cons_self
    ⟨rfl, by decide⟩ (List.mem_singleton_self "create") with ⟨step, member, _⟩ | named | shown
  · cases member
  · exact absurd (named.mpr rfl) (by decide)
  · exact absurd shown (by decide)

end MigrationPlatform.Workflow
