/-
`runSingleRowRetry` and `RetryFailedRowsWorkflow` on a job and its rows.

A single-row retry takes any row index; the API hands on what is in the URL. A
retry of all failed rows pages through the rows that are stored as failed,
continuing as new between pages. Both end in `finishJob`, unless an error ends
them before.
-/

import MigrationPlatform.Lifecycle.JobOutcome
import MigrationPlatform.Workflow.RowRetry

namespace MigrationPlatform.Lifecycle

open MigrationPlatform.Connectors MigrationPlatform.Workflow

structure RetriedJob where
  job : JobRow
  store : RowStore

def RetriedJob.publish (s : RetriedJob) (published : Bool) : RetriedJob :=
  if published = true then { s with job := syncJobTotals (countRows s.store.rows) s.job } else s

def RetriedJob.finishJob (s : RetriedJob) (finalized : ActivityEnd) : RetriedJob :=
  if finalized.applied = true then
    { s with job := finalize (countRows s.store.rows) {} false s.job }
  else s

structure RetryStart where
  licensed : Option String := none
  loaded : Except String LoadTemplateOutput

def RetryStart.template : RetryStart → Option LoadTemplateOutput
  | { licensed := none, loaded := .ok template } => some template
  | _ => none

/-! ### One row -/

structure SingleRowRetry where
  rowIndex : Int
  fromStart : Bool := false
  confirmNotApplied : Bool := false
  start : RetryStart
  row : RetryRowEnv
  published : Bool := true
  finalized : ActivityEnd := {}

section Workflows

variable (sha256Hex : String → String) (describe : ActivityError → String)
variable (jobID : Int) (runID : String)

/-- The job behind the retry; `none` when the environment is too short. -/
def runSingleRowRetry (s : RetriedJob) (retry : SingleRowRetry) : Option RetriedJob :=
  match retry.start.template with
  | none => some s
  | some template =>
      (retryPersistedRow sha256Hex describe jobID runID template s.store retry.rowIndex
        retry.fromStart retry.confirmNotApplied retry.row {}).map (fun retried =>
          match retried.error with
          | some _ => { s with store := retried.store }
          | none =>
              (RetriedJob.publish { s with store := retried.store } retry.published).finishJob
                retry.finalized)

def listFailedRows (rows : List StoredRow) (after : Int) (limit : Nat) : List Int :=
  (((rows.filter (fun row => decide (row.status = .failed ∧ after < row.index))).map
    StoredRow.index).insertionSort (fun left right => left ≤ right)).take limit

def retryRows (template : LoadTemplateOutput) (fromStart : Bool) :
    List Int → List RetryRowEnv → RowStore → MigrationWorkflowResult → Option RowRetry
  | [], _, store, result => some { store := store, result := result }
  | _ :: _, [], _, _ => none
  | rowIndex :: rest, env :: envs, store, result =>
      match retryPersistedRow sha256Hex describe jobID runID template store rowIndex fromStart
          false env result with
      | none => none
      | some retried =>
          match retried.error with
          | some _ => some retried
          | none => retryRows template fromStart rest envs retried.store retried.result

structure PageEnv where
  list : Option String := none
  rows : List RetryRowEnv
  published : Bool := true

/-- The variables of `RetryFailedRowsWorkflow` that live through its loop. -/
structure FailedRowsRun where
  world : RetriedJob
  cursor : Int := -1
  processedThisRun : Nat := 0
  result : MigrationWorkflowResult := {}

inductive PagesEnd
  | finished (world : RetriedJob)
  | continued (world : RetriedJob) (after : Int)
  | failed (world : RetriedJob)

def PagesEnd.world : PagesEnd → RetriedJob
  | .finished world => world
  | .continued world _ => world
  | .failed world => world

def pageLimit : Nat := 200

def rowsPerRun : Nat := 2000

def retryPages (template : LoadTemplateOutput) (fromStart : Bool) :
    List PageEnv → FailedRowsRun → Option PagesEnd
  | [], _ => none
  | env :: envs, run =>
      match env.list with
      | some _ => some (.failed run.world)
      | none =>
          let page := listFailedRows run.world.store.rows run.cursor pageLimit
          if page = [] then some (.finished run.world)
          else
            match retryRows sha256Hex describe jobID runID template fromStart page env.rows
                run.world.store run.result with
            | none => none
            | some retried =>
                match retried.error with
                | some _ => some (.failed { run.world with store := retried.store })
                | none =>
                    let world := RetriedJob.publish { run.world with store := retried.store }
                      env.published
                    let cursor := page.getLast?.getD run.cursor
                    let processed := run.processedThisRun + page.length
                    if page.length < pageLimit then some (.finished world)
                    else if processed ≥ rowsPerRun then some (.continued world cursor)
                    else
                      retryPages template fromStart envs
                        { world := world, cursor := cursor, processedThisRun := processed
                          result := retried.result }

structure FailedRowsEnv where
  start : RetryStart
  pages : List PageEnv
  finalized : ActivityEnd := {}

def retryFailedRows (fromStart : Bool) :
    List FailedRowsEnv → RetriedJob → Int → Option RetriedJob
  | [], _, _ => none
  | env :: envs, s, after =>
      match env.start.template with
      | none => some s
      | some template =>
          match retryPages sha256Hex describe jobID runID template fromStart env.pages
              { world := s, cursor := after } with
          | none => none
          | some (.failed world) => some world
          | some (.finished world) => some (world.finishJob env.finalized)
          | some (.continued world cursor) => retryFailedRows fromStart envs world cursor

inductive RetryRequest
  | row (retry : SingleRowRetry)
  | failed (fromStart : Bool) (runs : List FailedRowsEnv)

def runRetry (s : RetriedJob) : RetryRequest → Option RetriedJob
  | .row retry => runSingleRowRetry sha256Hex describe jobID runID s retry
  | .failed fromStart runs => retryFailedRows sha256Hex describe jobID runID fromStart runs s (-1)

end Workflows

@[simp] theorem publish_store (s : RetriedJob) (published : Bool) :
    (s.publish published).store = s.store := by
  unfold RetriedJob.publish
  split
  · rfl
  · rfl

@[simp] theorem finishJob_store (s : RetriedJob) (finalized : ActivityEnd) :
    (s.finishJob finalized).store = s.store := by
  unfold RetriedJob.finishJob
  split
  · rfl
  · rfl

section Indexes

variable {sha256Hex : String → String} {describe : ActivityError → String}
variable {jobID : Int} {runID : String} {template : LoadTemplateOutput} {fromStart : Bool}

theorem mem_of_listFailedRows {rows : List StoredRow} {after index : Int} {limit : Nat}
    (listed : index ∈ listFailedRows rows after limit) : index ∈ indexes rows := by
  unfold listFailedRows at listed
  have sorted := List.mem_of_mem_take listed
  rw [List.mem_insertionSort] at sorted
  obtain ⟨row, kept, same⟩ := List.mem_map.mp sorted
  exact List.mem_map.mpr ⟨row, List.mem_of_mem_filter kept, same⟩

theorem retryRows_indexes {retried : RowRetry} (page : List Int) :
    ∀ (envs : List RetryRowEnv) (store : RowStore) (result : MigrationWorkflowResult),
      (∀ index ∈ page, index ∈ indexes store.rows) →
      retryRows sha256Hex describe jobID runID template fromStart page envs store result =
        some retried → indexes retried.store.rows = indexes store.rows := by
  induction page with
  | nil =>
      intro envs store result _stored ran
      cases ran
      rfl
  | cons rowIndex rest ih =>
      intro envs store result stored ran
      cases envs with
      | nil => cases ran
      | cons env later =>
          unfold retryRows at ran
          split at ran
          · cases ran
          · rename_i first retriedFirst
            have same := retryPersistedRow_indexes (stored rowIndex List.mem_cons_self)
              retriedFirst
            split at ran
            · cases ran
              exact same
            · have rest := ih later first.store first.result (by
                intro index member
                rw [same]
                exact stored index (List.mem_cons_of_mem _ member)) ran
              rw [rest, same]

theorem retryPages_indexes {ended : PagesEnd} (envs : List PageEnv) :
    ∀ run : FailedRowsRun,
      retryPages sha256Hex describe jobID runID template fromStart envs run = some ended →
      indexes ended.world.store.rows = indexes run.world.store.rows := by
  induction envs with
  | nil =>
      intro run ran
      cases ran
  | cons env rest ih =>
      intro run ran
      unfold retryPages at ran
      split at ran
      · cases ran
        rfl
      · simp only at ran
        split at ran
        · cases ran
          rfl
        · split at ran
          · cases ran
          · rename_i retried retriedPage
            have same := retryRows_indexes _ env.rows run.world.store run.result
              (fun index listed => mem_of_listFailedRows listed) retriedPage
            split at ran
            · cases ran
              exact same
            · split at ran
              · cases ran
                change indexes (RetriedJob.publish _ env.published).store.rows = _
                rw [publish_store]
                exact same
              · split at ran
                · cases ran
                  change indexes (RetriedJob.publish _ env.published).store.rows = _
                  rw [publish_store]
                  exact same
                · have later := ih _ ran
                  rw [later]
                  change indexes (RetriedJob.publish _ env.published).store.rows = _
                  rw [publish_store]
                  exact same

theorem retryFailedRows_indexes {final : RetriedJob} (envs : List FailedRowsEnv) :
    ∀ (s : RetriedJob) (after : Int),
      retryFailedRows sha256Hex describe jobID runID fromStart envs s after = some final →
      indexes final.store.rows = indexes s.store.rows := by
  induction envs with
  | nil =>
      intro s after ran
      cases ran
  | cons env rest ih =>
      intro s after ran
      unfold retryFailedRows at ran
      split at ran
      · cases ran
        rfl
      · split at ran
        · cases ran
        · rename_i world ended
          cases ran
          exact retryPages_indexes env.pages _ ended
        · rename_i world ended
          cases ran
          rw [finishJob_store]
          exact retryPages_indexes env.pages _ ended
        · rename_i world cursor ended
          rw [ih world cursor ran]
          exact retryPages_indexes env.pages _ ended

private theorem runSingleRowRetry_indexes {s final : RetriedJob} {retry : SingleRowRetry}
    (present : retry.rowIndex ∈ indexes s.store.rows)
    (ran : runSingleRowRetry sha256Hex describe jobID runID s retry = some final) :
    indexes final.store.rows = indexes s.store.rows := by
  unfold runSingleRowRetry at ran
  split at ran
  · cases ran
    rfl
  · obtain ⟨retried, ranRow, ended⟩ := Option.map_eq_some_iff.mp ran
    have same := retryPersistedRow_indexes present ranRow
    split at ended
    · subst ended
      exact same
    · subst ended
      rw [finishJob_store, publish_store]
      exact same

end Indexes

/-! ### What a retry may change -/

/-- The job has the rows it had, and retrying an index that is none of its rows
leaves the status of a job whose rows all succeeded. -/
structure KeepsRows (s final : RetriedJob) (request : RetryRequest) : Prop where
  indexes : ∀ index, index ∈ indexes final.store.rows ↔ index ∈ indexes s.store.rows
  status : ∀ retry, request = .row retry → retry.rowIndex ∉ Workflow.indexes s.store.rows →
    (∀ row ∈ s.store.rows, row.status = .succeeded) → final.job.status = s.job.status

/-- The retry gets as far as recording that the row it was given has no data. -/
def SingleRowRetry.recordsMissing (retry : SingleRowRetry) : Bool :=
  retry.start.template.isSome && retry.row.load.isNone && retry.row.missing.applied

/-- The rows asked for are rows of the job, or the retry ends before it records
anything. -/
def RetryRequest.OnStoredRows (s : RetriedJob) : RetryRequest → Prop
  | .row retry => retry.rowIndex ∈ indexes s.store.rows ∨ retry.recordsMissing = false
  | .failed _ _ => True

theorem runSingleRowRetry_unrecorded {sha256Hex : String → String}
    {describe : ActivityError → String} {jobID : Int} {runID : String} {s final : RetriedJob}
    {retry : SingleRowRetry} (missing : retry.rowIndex ∉ indexes s.store.rows)
    (unrecorded : retry.recordsMissing = false)
    (ran : runSingleRowRetry sha256Hex describe jobID runID s retry = some final) :
    final.store.rows = s.store.rows ∧ final.job = s.job := by
  unfold runSingleRowRetry at ran
  unfold SingleRowRetry.recordsMissing at unrecorded
  split at ran
  · cases ran
    exact ⟨rfl, rfl⟩
  · rename_i template started
    obtain ⟨retried, ranRow, ended⟩ := Option.map_eq_some_iff.mp ran
    rw [started] at unrecorded
    cases loading : retry.row.load with
    | some message =>
        rcases retryPersistedRow_cases ranRow with ⟨_, _, rfl⟩ | ⟨loads, _⟩ | ⟨loads, _⟩
        · subst ended
          exact ⟨rfl, rfl⟩
        · rw [loading] at loads
          cases loads
        · rw [loading] at loads
          cases loads
    | none =>
        rw [loading] at unrecorded
        have notApplied : retry.row.missing.applied = false := unrecorded
        obtain ⟨error, rows⟩ := retryPersistedRow_missing missing loading ranRow
        rw [notApplied, if_neg (by decide)] at rows
        have failed : retry.row.missing.error.isNone = false :=
          (Bool.or_eq_false_iff.mp notApplied).1
        cases cause : retry.row.missing.error with
        | none =>
            rw [cause] at failed
            cases failed
        | some message =>
            rw [cause] at error
            rw [error] at ended
            subst ended
            exact ⟨rows, rfl⟩

theorem runSingleRowRetry_records {sha256Hex : String → String}
    {describe : ActivityError → String} {jobID : Int} {runID : String} {s final : RetriedJob}
    {retry : SingleRowRetry} (missing : retry.rowIndex ∉ indexes s.store.rows)
    (records : retry.recordsMissing = true)
    (ran : runSingleRowRetry sha256Hex describe jobID runID s retry = some final) :
    retry.rowIndex ∈ indexes final.store.rows := by
  unfold SingleRowRetry.recordsMissing at records
  obtain ⟨both, applied⟩ := (Bool.and_eq_true _ _).mp records
  obtain ⟨started, loads⟩ := (Bool.and_eq_true _ _).mp both
  unfold runSingleRowRetry at ran
  split at ran
  · rename_i refused
    rw [refused] at started
    cases started
  · obtain ⟨retried, ranRow, ended⟩ := Option.map_eq_some_iff.mp ran
    obtain ⟨_error, rows⟩ := retryPersistedRow_missing missing (Option.isNone_iff_eq_none.mp loads)
      ranRow
    rw [if_pos applied] at rows
    have added : retry.rowIndex ∈ indexes retried.store.rows := by
      rw [rows]
      exact mem_indexes_persistOutcome s.store.rows (missingRowOutcome retry.rowIndex)
    split at ended
    · subst ended
      exact added
    · subst ended
      rw [finishJob_store, publish_store]
      exact added

/-- A retry keeps the rows of the job, and the status of a fully succeeded one
where it has nothing to retry, exactly when it is asked for rows of the job or
ends before recording anything. -/
theorem retry_keeps_rows_iff (sha256Hex : String → String) (describe : ActivityError → String)
    (jobID : Int) (runID : String) (s final : RetriedJob) (request : RetryRequest)
    (ran : runRetry sha256Hex describe jobID runID s request = some final) :
    KeepsRows s final request ↔ request.OnStoredRows s := by
  cases request with
  | failed fromStart runs =>
      constructor
      · intro _keeps
        trivial
      · intro _stored
        have same := retryFailedRows_indexes runs s (-1) ran
        constructor
        · intro index
          rw [same]
        · intro retry impossible
          cases impossible
  | row retry =>
      change runSingleRowRetry sha256Hex describe jobID runID s retry = some final at ran
      constructor
      · intro keeps
        by_cases present : retry.rowIndex ∈ indexes s.store.rows
        · left
          exact present
        · right
          cases records : retry.recordsMissing with
          | false => rfl
          | true =>
              have added := runSingleRowRetry_records present records ran
              exact absurd ((keeps.indexes retry.rowIndex).mp added) present
      · intro stored
        by_cases present : retry.rowIndex ∈ indexes s.store.rows
        · have same := runSingleRowRetry_indexes present ran
          constructor
          · intro index
            rw [same]
          · intro other isRow absent
            cases isRow
            exact absurd present absent
        · have unrecorded : retry.recordsMissing = false := stored.resolve_left present
          obtain ⟨rows, job⟩ := runSingleRowRetry_unrecorded present unrecorded ran
          constructor
          · intro index
            rw [rows]
          · intro _retry _isRow _absent _succeeded
            rw [job]

def oneRow : RetriedJob :=
  { job := { status := .succeeded, totals := some { processed := 1, total := 1 } }
    store := { rows := [{ index := 0, status := .succeeded, rowJSON := some [("id", .text "1")] }] } }

def createRow (rowIndex : Int) : RetryRequest :=
  .row
    { rowIndex := rowIndex
      start := { loaded := .ok { version := 1, steps := [createStep] } }
      row := { row := { steps := [{ attempts := [answered "run:1:1" none 201] }] } } }

theorem stored_row_retried :
    ∃ final, runRetry createSha256 describeError 7 "run" oneRow (createRow 0) = some final ∧
      KeepsRows oneRow final (createRow 0) := by
  refine ⟨_, rfl, ?_⟩
  apply (retry_keeps_rows_iff createSha256 describeError 7 "run" oneRow _ (createRow 0) rfl).mpr
  left
  exact List.mem_cons_self

/-- Retrying row 7 of a job that has row 0 only: the job has a failed row 7
afterwards and is failed itself. -/
theorem missing_row_created :
    ∃ final, runRetry createSha256 describeError 7 "run" oneRow (createRow 7) = some final ∧
      indexes final.store.rows = [0, 7] ∧ final.job.status = .failed ∧
      ¬KeepsRows oneRow final (createRow 7) := by
  refine ⟨_, rfl, rfl, rfl, ?_⟩
  intro keeps
  have kept := (keeps.indexes 7).mp (List.mem_cons_of_mem _ List.mem_cons_self)
  rcases List.mem_cons.mp kept with impossible | impossible
  · cases impossible
  · cases impossible

end MigrationPlatform.Lifecycle
