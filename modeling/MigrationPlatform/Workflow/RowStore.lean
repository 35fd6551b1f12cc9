/-
The rows and step outcomes that a job keeps in `job_rows` and `job_row_steps`,
and the activities that write and load them.

One job's rows are a table keyed by row index, a row's step outcomes a table
keyed by step index. An activity input crosses JSON on its way, where a map
marked `omitempty` that is empty cannot be told from one that is missing.
-/

import Mathlib.Data.List.Sort
import MigrationPlatform.Foundation.KeyedTable
import MigrationPlatform.Workflow.RowExecution

namespace MigrationPlatform.Workflow

open MigrationPlatform.Connectors KeyedTable
open MigrationPlatform.Delivery (nullIf)

/-- A row of `job_rows`. `payloadJSON` and `responseJSON` are the JSON texts;
`rowJSON` is `none` where the column is null. -/
structure StoredRow where
  index : Int
  status : StepStatus
  attempts : Nat := 1
  lastError : Option String := none
  rowJSON : Option Data := none
  payloadJSON : String := "null"
  responseJSON : String := "null"
  lastAttemptID : Option String := none

structure PersistOutcomeInput where
  rowIndex : Int
  status : StepStatus
  lastError : String := ""
  attemptID : String := ""
  row : Option Data := none
  payload : Option String := none
  response : Option String := none

/-- `nullIfJSON` of the marshalled row: null for a missing row and for one
without fields. -/
def storedRowJSON (row : Option Data) : Option Data :=
  match row with
  | none => none
  | some [] => none
  | some data => some data

theorem storedRowJSON_some {row : Option Data} {data : Data} :
    storedRowJSON row = some data ↔ row = some data ∧ data ≠ [] := by
  cases row with
  | none => simp [storedRowJSON]
  | some own =>
      cases own with
      | nil =>
          constructor
          · intro impossible
            cases impossible
          · intro both
            exact absurd (Option.some.inj both.1).symm both.2
      | cons field fields =>
          constructor
          · intro same
            cases same
            exact ⟨rfl, List.cons_ne_nil _ _⟩
          · intro both
            exact both.1

/-- A payload without fields arrives as a missing one, marshalled to null. -/
def storedPayload : Option String → String
  | none => "null"
  | some payload => if payload = "\x7b\x7d" then "null" else payload

/-- `safeJSON` of a response: an absent one is null, any other is a JSON text
already, since `CallEndpoint` returns its bodies through `safeJSON`. -/
def storedResponse : Option String → String
  | none => "null"
  | some body => if body = "" then "null" else body

/-- `attempts` counts the attempts that are not redeliveries of the last one. -/
def countedAttempt (attemptID : String) (lastAttemptID : Option String) (attempts : Nat) : Nat :=
  if (nullIf attemptID).isSome = true ∧ nullIf attemptID = lastAttemptID then attempts
  else attempts + 1

def PersistOutcomeInput.inserted (outcome : PersistOutcomeInput) : StoredRow :=
  { index := outcome.rowIndex
    status := outcome.status
    lastError := nullIf outcome.lastError
    rowJSON := storedRowJSON outcome.row
    payloadJSON := storedPayload outcome.payload
    responseJSON := storedResponse outcome.response
    lastAttemptID := nullIf outcome.attemptID }

/-- The DO UPDATE of `PersistOutcome`: the row data stays when none is given. -/
def PersistOutcomeInput.updated (outcome : PersistOutcomeInput) (old : StoredRow) : StoredRow :=
  { outcome.inserted with
    index := old.index
    attempts := countedAttempt outcome.attemptID old.lastAttemptID old.attempts
    rowJSON := (storedRowJSON outcome.row).or old.rowJSON }

def persistOutcome (rows : List StoredRow) (outcome : PersistOutcomeInput) : List StoredRow :=
  upsert StoredRow.index outcome.inserted outcome.updated rows

def indexes (rows : List StoredRow) : List Int := rows.map StoredRow.index

theorem persistOutcome_indexes {rows : List StoredRow} {outcome : PersistOutcomeInput}
    (present : outcome.rowIndex ∈ indexes rows) :
    indexes (persistOutcome rows outcome) = indexes rows := by
  have keeps : ∀ row, (outcome.updated row).index = row.index := fun _ => rfl
  exact map_upsert_of_mem keeps rows present

theorem mem_indexes_persistOutcome (rows : List StoredRow) (outcome : PersistOutcomeInput) :
    outcome.rowIndex ∈ indexes (persistOutcome rows outcome) := by
  have keeps : ∀ row, (outcome.updated row).index = row.index := fun _ => rfl
  exact mem_keys_upsert keeps rows

structure StoredStep where
  rowIndex : Int
  stepIndex : Int
  stepName : String
  status : StepStatus
  attempts : Nat := 1
  requestURL : Option String := none
  requestJSON : String := "null"
  responseStatus : Option Nat := none
  responseJSON : String := "null"
  lastError : Option String := none
  lastAttemptID : Option String := none
deriving DecidableEq, Repr

def StoredStep.key (step : StoredStep) : Int × Int := (step.rowIndex, step.stepIndex)

structure PersistStepOutcomeInput where
  rowIndex : Int
  stepIndex : Int
  stepName : String
  record : OutcomeRecord
  attemptID : String := ""

def PersistStepOutcomeInput.inserted (outcome : PersistStepOutcomeInput) : StoredStep :=
  { rowIndex := outcome.rowIndex
    stepIndex := outcome.stepIndex
    stepName := outcome.stepName
    status := outcome.record.status
    requestURL := nullIf outcome.record.requestURL
    requestJSON := storedPayload outcome.record.request
    responseStatus :=
      if outcome.record.responseStatus = 0 then none else some outcome.record.responseStatus
    responseJSON := storedResponse outcome.record.response
    lastError := nullIf outcome.record.lastError
    lastAttemptID := nullIf outcome.attemptID }

def PersistStepOutcomeInput.updated (outcome : PersistStepOutcomeInput) (old : StoredStep) :
    StoredStep :=
  { outcome.inserted with
    rowIndex := old.rowIndex
    stepIndex := old.stepIndex
    attempts := countedAttempt outcome.attemptID old.lastAttemptID old.attempts }

def persistStepOutcome (steps : List StoredStep) (outcome : PersistStepOutcomeInput) :
    List StoredStep :=
  upsert StoredStep.key outcome.inserted outcome.updated steps

structure RowStore where
  rows : List StoredRow := []
  steps : List StoredStep := []

/-- What `LoadRowState` returns: `found` is false when the row does not exist. -/
structure LoadRowStateOutput where
  found : Bool
  row : Option Data := none
  steps : List StoredStep := []

def loadRowState (store : RowStore) (rowIndex : Int) : LoadRowStateOutput :=
  match lookup StoredRow.index rowIndex store.rows with
  | none => { found := false }
  | some row =>
      { found := true
        row := row.rowJSON
        steps := (store.steps.filter (fun step => decide (step.rowIndex = rowIndex))).insertionSort
          (fun left right => left.stepIndex ≤ right.stepIndex) }

end MigrationPlatform.Workflow
