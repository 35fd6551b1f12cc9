/-
`retryPersistedRow`: processing a row again from what the job has stored of it.

The row's data and the responses of its succeeded steps come from the store.
What the steps and the row record goes back to it, and an activity that fails
for good may have been executed all the same.
-/

import MigrationPlatform.Workflow.MigrationChain
import MigrationPlatform.Workflow.RowStore

namespace MigrationPlatform.Workflow

open MigrationPlatform.Connectors

/-- How a recording activity ends. With an error it may have been executed. -/
structure ActivityEnd where
  error : Option String := none
  executed : Bool := false

def ActivityEnd.applied (ended : ActivityEnd) : Bool :=
  ended.error.isNone || ended.executed

def StepExecution.rowError (multiStep : Bool) (execution : StepExecution) : String :=
  if execution.record.status = .succeeded then ""
  else if multiStep = true then
    "step " ++ execution.stepName.quote ++ ": " ++ execution.record.lastError
  else execution.record.lastError

/-- The `PersistOutcomeInput` of `processOneRow`. `executed` is newest first, so
that its head is `last`. -/
def rowOutcome (runID : String) (row : Row) (multiStep : Bool) (executed : List StepExecution)
    (status : StepStatus) : PersistOutcomeInput :=
  { rowIndex := row.index
    status := status
    attemptID := runID ++ ":" ++ toString row.index
    row := some row.data
    payload := executed.head?.bind (fun last => last.record.request)
    response := executed.head?.bind (fun last => last.record.response)
    lastError := (executed.head?.map (StepExecution.rowError multiStep)).getD "" }

/-- The `PersistStepOutcomeInput` of an executed step. Its index is the place of
its name in the template, where names are unique. -/
def stepOutcome (runID : String) (rowIndex : Int) (steps : List Step) (execution : StepExecution) :
    PersistStepOutcomeInput :=
  let stepIndex := steps.findIdx (fun step => decide (step.name = execution.stepName))
  { rowIndex := rowIndex
    stepIndex := stepIndex
    stepName := execution.stepName
    record := execution.record
    attemptID := runID ++ ":" ++ toString rowIndex ++ ":" ++ toString stepIndex }

def recordedSteps (multiStep : Bool) (lastExecuted : Bool) (processed : RowExecution) :
    List StepExecution :=
  if multiStep = false then []
  else if processed.status.isSome = true ∨ lastExecuted = true then processed.executed.reverse
  else processed.executed.tail.reverse

/-- What a processed row leaves in the store. `executed` says whether the
recording that failed, if any, was executed all the same. -/
def RowStore.afterRow (store : RowStore) (runID : String) (row : Row) (steps : List Step)
    (processed : RowExecution) (executed : Bool) : RowStore :=
  let multiStep := decide (1 < steps.length)
  { steps := (recordedSteps multiStep executed processed).foldl
      (fun stored execution => persistStepOutcome stored (stepOutcome runID row.index steps execution))
      store.steps
    rows :=
      match processed.status with
      | some status =>
          if processed.error.isNone = true ∨ executed = true then
            persistOutcome store.rows
              (rowOutcome runID row multiStep processed.executed status)
          else store.rows
      | none => store.rows }

/-- The responses by which a retry resumes, the last one of a name first. -/
def resumeResponses (steps : List StoredStep) : List (String × String) :=
  ((steps.filter (fun step => decide (step.status = .succeeded))).map
    (fun step => (step.stepName, step.responseJSON))).reverse

def retryRun (state : LoadRowStateOutput) (fromStart confirmNotApplied : Bool) : RowRun :=
  { resume := if fromStart = true then none else some (resumeResponses state.steps)
    resend := fromStart
    confirmNotApplied := confirmNotApplied }

def missingRowOutcome (rowIndex : Int) : PersistOutcomeInput :=
  { rowIndex := rowIndex
    status := .failed
    lastError := "cannot retry row " ++ toString rowIndex ++ ": no persisted row data found" }

/-- What the activities of one retried row return. `missing` ends the
`PersistOutcome` of a row without stored data, `executed` is that of
`RowStore.afterRow`. -/
structure RetryRowEnv where
  load : Option String := none
  missing : ActivityEnd := {}
  row : RowEnv
  executed : Bool := false

structure RowRetry where
  store : RowStore
  executed : List StepExecution := []
  result : MigrationWorkflowResult
  error : Option String := none

section Retry

variable (sha256Hex : String → String) (describe : ActivityError → String)

def retryPersistedRow (jobID : Int) (runID : String) (template : LoadTemplateOutput)
    (store : RowStore) (rowIndex : Int) (fromStart confirmNotApplied : Bool) (env : RetryRowEnv)
    (result : MigrationWorkflowResult) : Option RowRetry :=
  match env.load with
  | some message => some { store := store, result := result, error := some message }
  | none =>
      match (loadRowState store rowIndex).row with
      | none =>
          some
            { store :=
                if env.missing.applied = true then
                  { store with rows := persistOutcome store.rows (missingRowOutcome rowIndex) }
                else store
              result := if env.missing.error.isNone = true then result.count .failed else result
              error := env.missing.error }
      | some data =>
          (processOneRow sha256Hex describe template.maxAttempts jobID
            { index := rowIndex, data := data } template.steps
            (retryRun (loadRowState store rowIndex) fromStart confirmNotApplied) env.row.steps
            env.row.persist result).map (fun processed =>
              { store := store.afterRow runID { index := rowIndex, data := data } template.steps
                  processed env.executed
                executed := processed.executed
                result := processed.result
                error := processed.error })

end Retry

theorem retryPersistedRow_cases {sha256Hex : String → String} {describe : ActivityError → String}
    {jobID : Int} {runID : String} {template : LoadTemplateOutput} {store : RowStore}
    {rowIndex : Int} {fromStart confirmNotApplied : Bool} {env : RetryRowEnv}
    {result : MigrationWorkflowResult} {retried : RowRetry}
    (ran : retryPersistedRow sha256Hex describe jobID runID template store rowIndex fromStart
      confirmNotApplied env result = some retried) :
    (∃ message, env.load = some message ∧
      retried = { store := store, result := result, error := some message }) ∨
    (env.load = none ∧ (loadRowState store rowIndex).row = none ∧
      retried.executed = [] ∧ retried.error = env.missing.error ∧
      retried.store = if env.missing.applied = true then
        { store with rows := persistOutcome store.rows (missingRowOutcome rowIndex) } else store) ∨
    (env.load = none ∧ ∃ data processed, (loadRowState store rowIndex).row = some data ∧
      processOneRow sha256Hex describe template.maxAttempts jobID
        { index := rowIndex, data := data } template.steps
        (retryRun (loadRowState store rowIndex) fromStart confirmNotApplied) env.row.steps
        env.row.persist result = some processed ∧
      retried.executed = processed.executed ∧ retried.error = processed.error ∧
      retried.store = store.afterRow runID { index := rowIndex, data := data } template.steps
        processed env.executed) := by
  unfold retryPersistedRow at ran
  cases loading : env.load with
  | some message =>
      rw [loading] at ran
      cases ran
      exact .inl ⟨message, rfl, rfl⟩
  | none =>
      rw [loading] at ran
      simp only at ran
      cases loaded : (loadRowState store rowIndex).row with
      | none =>
          rw [loaded] at ran
          cases ran
          exact .inr (.inl ⟨rfl, rfl, rfl, rfl, rfl⟩)
      | some data =>
          rw [loaded] at ran
          obtain ⟨processed, processing, rfl⟩ := Option.map_eq_some_iff.mp ran
          exact .inr (.inr ⟨rfl, data, processed, rfl, processing, rfl, rfl, rfl⟩)

private theorem afterRow_indexes {store : RowStore} {runID : String} {row : Row} {steps : List Step}
    {processed : RowExecution} {executed : Bool} (present : row.index ∈ indexes store.rows) :
    indexes (store.afterRow runID row steps processed executed).rows = indexes store.rows := by
  unfold RowStore.afterRow
  cases processed.status with
  | none => rfl
  | some status =>
      simp only
      split
      · exact persistOutcome_indexes present
      · rfl

private theorem row_stored_of_loaded {store : RowStore} {rowIndex : Int} {data : Data}
    (loaded : (loadRowState store rowIndex).row = some data) :
    rowIndex ∈ indexes store.rows := by
  unfold loadRowState at loaded
  apply (KeyedTable.lookup_isSome_iff rowIndex store.rows).mp
  cases found : KeyedTable.lookup StoredRow.index rowIndex store.rows with
  | none =>
      rw [found] at loaded
      cases loaded
  | some row => rfl

theorem retryPersistedRow_indexes {sha256Hex : String → String} {describe : ActivityError → String}
    {jobID : Int} {runID : String} {template : LoadTemplateOutput} {store : RowStore}
    {rowIndex : Int} {fromStart confirmNotApplied : Bool} {env : RetryRowEnv}
    {result : MigrationWorkflowResult} {retried : RowRetry}
    (present : rowIndex ∈ indexes store.rows)
    (ran : retryPersistedRow sha256Hex describe jobID runID template store rowIndex fromStart
      confirmNotApplied env result = some retried) :
    indexes retried.store.rows = indexes store.rows := by
  rcases retryPersistedRow_cases ran with ⟨message, _, rfl⟩ | ⟨_, _, _, _, stored⟩ |
    ⟨_, data, processed, _, _, _, _, stored⟩
  · rfl
  · rw [stored]
    split
    · exact persistOutcome_indexes present
    · rfl
  · rw [stored]
    exact afterRow_indexes present

theorem retryPersistedRow_missing {sha256Hex : String → String} {describe : ActivityError → String}
    {jobID : Int} {runID : String} {template : LoadTemplateOutput} {store : RowStore}
    {rowIndex : Int} {fromStart confirmNotApplied : Bool} {env : RetryRowEnv}
    {result : MigrationWorkflowResult} {retried : RowRetry}
    (missing : rowIndex ∉ indexes store.rows) (loads : env.load = none)
    (ran : retryPersistedRow sha256Hex describe jobID runID template store rowIndex fromStart
      confirmNotApplied env result = some retried) :
    retried.error = env.missing.error ∧
      retried.store.rows = if env.missing.applied = true then
        persistOutcome store.rows (missingRowOutcome rowIndex) else store.rows := by
  rcases retryPersistedRow_cases ran with ⟨message, failed, _⟩ | ⟨_, _, _, error, stored⟩ |
    ⟨_, data, processed, loaded, _, _, _, _⟩
  · rw [loads] at failed
    cases failed
  · refine ⟨error, ?_⟩
    rw [stored]
    split
    · rfl
    · rfl
  · exact absurd (row_stored_of_loaded loaded) missing

end MigrationPlatform.Workflow
