/-
The row of a job in `jobs` and the statements that write its status.

Every writer of `jobs.status` ends in one UPDATE. What a writer read before
(row counts, the state of a workflow, the status it checked) only fixes the
parameters of its statement, so a statement is modelled with its parameters
free: a run of statements in any order, with any parameters, contains every
interleaving of the writers.
-/

import Mathlib.Data.List.Basic

namespace MigrationPlatform.Lifecycle

inductive JobStatus
  | pending
  | running
  | paused
  | succeeded
  | failed
  | cancelled
deriving DecidableEq, Repr

/-- The statuses from which `cancel_job` and the reconciler may move a job. -/
def JobStatus.isActive : JobStatus → Bool
  | .pending | .running | .paused => true
  | .succeeded | .failed | .cancelled => false

def JobStatus.isTerminal (status : JobStatus) : Bool := !status.isActive

structure Totals where
  processed : Nat := 0
  failed : Nat := 0
  unresolved : Nat := 0
  total : Nat := 0
deriving DecidableEq, Repr

/-- What the execution concluded about a job. An empty `error` is no error. -/
structure Outcome where
  cancelled : Bool := false
  error : String := ""
deriving DecidableEq, Repr

/-- The columns that the writers of `status` read or write. `totals` is
`none` while `totals_json` holds its default, the empty object. -/
structure JobRow where
  status : JobStatus
  totals : Option Totals := none
  lastError : Option String := none
deriving DecidableEq, Repr

def terminalStatus (t : Totals) (o : Outcome) : JobStatus :=
  if o.cancelled = true then .cancelled
  else if o.error ≠ "" then .failed
  else if t.failed > 0 ∨ t.unresolved > 0 ∨ t.total = 0 then .failed
  else .succeeded

/-! ### The statements -/

def Outcome.lastError (o : Outcome) : Option String :=
  if o.error ≠ "" then some o.error else none

def finalize (t : Totals) (o : Outcome) (activeOnly : Bool) (job : JobRow) : JobRow :=
  if activeOnly = false ∨ job.status.isActive = true then
    { status :=
        if job.status = .cancelled then job.status
        else if terminalStatus t o = .cancelled then .cancelled
        else if (o.lastError.or job.lastError).isSome = true then .failed
        else terminalStatus t o
      totals := some t
      lastError := o.lastError.or job.lastError }
  else job

/-- `pending` becomes `running`, every other status stays: the statements that
record a start, `WHERE status = 'pending'` or through a CASE. -/
def recordStarted (job : JobRow) : JobRow :=
  { job with status := if job.status = .pending then .running else job.status }

def startFailed (message : String) (job : JobRow) : JobRow :=
  if job.status = .pending then
    { job with status := .failed, lastError := some ("workflow start failed: " ++ message) }
  else job

def recordSignal (newStatus : JobStatus) (allowed : List JobStatus) (job : JobRow) : JobRow :=
  if job.status ∈ allowed then { job with status := newStatus } else job

def pausable : List JobStatus := [.running]

def resumable : List JobStatus := [.paused]

def recordPause : JobRow → JobRow := recordSignal .paused pausable

def recordResume : JobRow → JobRow := recordSignal .running resumable

def recordCancel (counts : Totals) (job : JobRow) : JobRow :=
  if job.status.isActive = true then
    { job with status := .cancelled, totals := some counts }
  else job

def syncJobTotals (t : Totals) (job : JobRow) : JobRow :=
  if job.status = .running then { job with totals := some t } else job

inductive WorkflowExecutionStatus
  | unspecified
  | running
  | completed
  | failed
  | canceled
  | terminated
  | continuedAsNew
  | timedOut
deriving DecidableEq, Repr

/-- What the reconciler does with a stale job: `none` where the workflow still
owns it. The execution is `none` when Temporal does not know it. -/
def repairFor : Option WorkflowExecutionStatus → Option Outcome
  | none => some { error := "workflow not found: it never started or its history has expired" }
  | some .running => none
  | some .continuedAsNew => none
  | some .completed => some {}
  | some .canceled => some { cancelled := true }
  | some .terminated => some { error := "workflow was terminated before recording its outcome" }
  | some .timedOut => some { error := "workflow timed out before recording its outcome" }
  | some _ => some { error := "workflow failed before recording its outcome" }

/-- The statement of `reconcile`. `seen` is the status that `staleJobs` read
and `t` what `CountRows` returned. -/
def reconcile (seen : JobStatus) (execution : Option WorkflowExecutionStatus) (t : Totals)
    (job : JobRow) : JobRow :=
  match repairFor execution with
  | some outcome => finalize t outcome true job
  | none =>
      if seen ≠ .pending ∨ execution ≠ some .running then job else recordStarted job

inductive JobWrite
  | startFailed (message : String)
  | startRecorded
  | markJobRunning
  | pause
  | resume
  | cancel (counts : Totals)
  | finalize (t : Totals) (o : Outcome)
  | reconcile (seen : JobStatus) (execution : Option WorkflowExecutionStatus) (t : Totals)
  | syncTotals (t : Totals)

def JobRow.write (job : JobRow) : JobWrite → JobRow
  | .startFailed message => Lifecycle.startFailed message job
  | .startRecorded => recordStarted job
  | .markJobRunning => recordStarted job
  | .pause => recordPause job
  | .resume => recordResume job
  | .cancel counts => recordCancel counts job
  | .finalize t o => Lifecycle.finalize t o false job
  | .reconcile seen execution t => Lifecycle.reconcile seen execution t job
  | .syncTotals t => Lifecycle.syncJobTotals t job

def JobRow.writes (job : JobRow) (statements : List JobWrite) : JobRow :=
  statements.foldl JobRow.write job

/-- The INSERT of a job: the API, the watch and the batch stages insert it
`pending`, `BootstrapScheduledJob` inserts it `running`. -/
def insertedJob (scheduled : Bool) : JobRow :=
  { status := if scheduled = true then .running else .pending }

structure RecordsSuccess (t : Totals) (o : Outcome) (job : JobRow) : Prop where
  failed : t.failed = 0
  unresolved : t.unresolved = 0
  total : t.total ≠ 0
  notCancelled : o.cancelled = false
  error : o.error = ""
  jobNotCancelled : job.status ≠ .cancelled
  jobError : job.lastError = none

theorem terminalStatus_succeeded_iff (t : Totals) (o : Outcome) :
    terminalStatus t o = .succeeded ↔
      o.cancelled = false ∧ o.error = "" ∧ t.failed = 0 ∧ t.unresolved = 0 ∧ t.total ≠ 0 := by
  unfold terminalStatus
  split
  · rename_i cancelled
    simp [cancelled]
  · rename_i running
    split
    · rename_i error
      simp [error]
    · rename_i noError
      split
      · rename_i dirty
        constructor
        · exact nofun
        · rintro ⟨_, _, failed, unresolved, total⟩
          omega
      · rename_i clean
        constructor
        · intro _succeeded
          refine ⟨Bool.eq_false_iff.mpr running, not_not.mp noError, ?_⟩
          omega
        · intro _conditions
          rfl

theorem RecordsSuccess.noError {t : Totals} {o : Outcome} {job : JobRow}
    (records : RecordsSuccess t o job) : o.lastError.or job.lastError = none := by
  have ownError : o.lastError = none := by
    unfold Outcome.lastError
    rw [if_neg (not_not.mpr records.error)]
  rw [ownError, records.jobError]
  rfl

theorem finalize_succeeded_iff (t : Totals) (o : Outcome) {activeOnly : Bool} {job : JobRow}
    (executed : activeOnly = false ∨ job.status.isActive = true) :
    (finalize t o activeOnly job).status = .succeeded ↔ RecordsSuccess t o job := by
  unfold finalize
  rw [if_pos executed]
  change (if job.status = .cancelled then job.status
    else if terminalStatus t o = .cancelled then .cancelled
    else if (o.lastError.or job.lastError).isSome = true then .failed
    else terminalStatus t o) = JobStatus.succeeded ↔ _
  constructor
  · intro succeeded
    split at succeeded
    · rename_i cancelled
      rw [cancelled] at succeeded
      cases succeeded
    · rename_i jobNotCancelled
      split at succeeded
      · cases succeeded
      · split at succeeded
        · cases succeeded
        · rename_i noErrors
          obtain ⟨notCancelled, error, failed, unresolved, total⟩ :=
            (terminalStatus_succeeded_iff t o).mp succeeded
          refine ⟨failed, unresolved, total, notCancelled, error, jobNotCancelled, ?_⟩
          have none := Option.not_isSome_iff_eq_none.mp noErrors
          exact (Option.or_eq_none_iff.mp none).2
  · intro records
    have status := (terminalStatus_succeeded_iff t o).mpr
      ⟨records.notCancelled, records.error, records.failed, records.unresolved, records.total⟩
    rw [if_neg records.jobNotCancelled, status, records.noError]
    rfl

/-- A later state of a job as its writers may leave it: what is settled in
`before` is settled in `after`. -/
structure JobRow.Precedes (before after : JobRow) : Prop where
  cancelled : before.status = .cancelled → after.status = .cancelled
  terminal : before.status.isTerminal = true → after.status.isTerminal = true
  lastError : before.lastError ≠ none → after.lastError ≠ none

theorem JobRow.Precedes.refl (job : JobRow) : job.Precedes job where
  cancelled := id
  terminal := id
  lastError := id

theorem JobRow.Precedes.trans {first second third : JobRow} (early : first.Precedes second)
    (late : second.Precedes third) : first.Precedes third where
  cancelled := fun settled => late.cancelled (early.cancelled settled)
  terminal := fun settled => late.terminal (early.terminal settled)
  lastError := fun settled => late.lastError (early.lastError settled)

def JobRow.ErrorShown (job : JobRow) : Prop :=
  job.lastError ≠ none → job.status = .failed ∨ job.status = .cancelled

/-- What a statement leaves behind, from a job that shows its errors. -/
structure JobRow.Advances (before after : JobRow) : Prop where
  precedes : before.Precedes after
  errorShown : before.ErrorShown → after.ErrorShown

theorem JobRow.Advances.refl (job : JobRow) : job.Advances job where
  precedes := JobRow.Precedes.refl job
  errorShown := id

private theorem terminalStatus_isTerminal (t : Totals) (o : Outcome) :
    (terminalStatus t o).isTerminal = true := by
  unfold terminalStatus
  split
  · rfl
  · split
    · rfl
    · split
      · rfl
      · rfl

theorem finalize_status_isTerminal (t : Totals) (o : Outcome) (activeOnly : Bool) (job : JobRow)
    (executed : activeOnly = false ∨ job.status.isActive = true) :
    (finalize t o activeOnly job).status.isTerminal = true := by
  unfold finalize
  rw [if_pos executed]
  change JobStatus.isTerminal (if job.status = .cancelled then job.status
    else if terminalStatus t o = .cancelled then .cancelled
    else if (o.lastError.or job.lastError).isSome = true then .failed
    else terminalStatus t o) = true
  split
  · rename_i cancelled
    rw [cancelled]
    rfl
  · split
    · rfl
    · split
      · rfl
      · exact terminalStatus_isTerminal t o

theorem finalize_advances (t : Totals) (o : Outcome) (activeOnly : Bool) (job : JobRow) :
    job.Advances (finalize t o activeOnly job) := by
  by_cases executed : activeOnly = false ∨ job.status.isActive = true
  · have terminal := finalize_status_isTerminal t o activeOnly job executed
    unfold finalize at terminal ⊢
    rw [if_pos executed] at terminal ⊢
    constructor
    · constructor
      · intro cancelled
        change (if job.status = .cancelled then job.status else _) = JobStatus.cancelled
        rw [if_pos cancelled, cancelled]
      · intro _settled
        exact terminal
      · intro recorded
        change o.lastError.or job.lastError ≠ none
        cases o.lastError with
        | none => exact recorded
        | some message =>
            intro impossible
            cases impossible
    · intro _shown recorded
      change o.lastError.or job.lastError ≠ none at recorded
      have present : (o.lastError.or job.lastError).isSome = true :=
        Option.isSome_iff_ne_none.mpr recorded
      by_cases cancelled : job.status = .cancelled
      · right
        change (if job.status = .cancelled then job.status else _) = JobStatus.cancelled
        rw [if_pos cancelled, cancelled]
      · simp only [if_neg cancelled, present, if_true]
        split
        · right
          rfl
        · left
          rfl
  · unfold finalize
    rw [if_neg executed]
    exact JobRow.Advances.refl job

theorem JobRow.advances_of_active {job after : JobRow} (active : job.status.isActive = true)
    (kept : job.lastError ≠ none → after.lastError ≠ none)
    (shown : after.lastError = job.lastError ∨ after.status = .failed) : job.Advances after := by
  have notCancelled : job.status ≠ .cancelled := by
    intro cancelled
    rw [cancelled] at active
    cases active
  have notFailed : job.status ≠ .failed := by
    intro failed
    rw [failed] at active
    cases active
  constructor
  · constructor
    · intro cancelled
      exact absurd cancelled notCancelled
    · intro terminal
      unfold JobStatus.isTerminal at terminal
      rw [active] at terminal
      cases terminal
    · exact kept
  · intro before recorded
    rcases shown with same | failed
    · rw [same] at recorded
      rcases before recorded with failed | cancelled
      · exact absurd failed notFailed
      · exact absurd cancelled notCancelled
    · left
      exact failed

theorem recordStarted_advances (job : JobRow) : job.Advances (recordStarted job) := by
  by_cases pending : job.status = .pending
  · apply JobRow.advances_of_active
    · rw [pending]
      rfl
    · exact id
    · left
      rfl
  · have same : recordStarted job = job := by
      unfold recordStarted
      rw [if_neg pending]
    rw [same]
    exact JobRow.Advances.refl job

theorem recordSignal_advances (newStatus : JobStatus) (allowed : List JobStatus)
    (active : ∀ status ∈ allowed, status.isActive = true) (job : JobRow) :
    job.Advances (recordSignal newStatus allowed job) := by
  unfold recordSignal
  split
  · rename_i member
    apply JobRow.advances_of_active (active job.status member)
    · exact id
    · left
      rfl
  · exact JobRow.Advances.refl job

private theorem startFailed_advances (message : String) (job : JobRow) :
    job.Advances (startFailed message job) := by
  unfold startFailed
  split
  · rename_i pending
    apply JobRow.advances_of_active
    · rw [pending]
      rfl
    · intro _recorded impossible
      cases impossible
    · right
      rfl
  · exact JobRow.Advances.refl job

private theorem recordCancel_advances (counts : Totals) (job : JobRow) :
    job.Advances (recordCancel counts job) := by
  unfold recordCancel
  split
  · rename_i active
    apply JobRow.advances_of_active active
    · exact id
    · left
      rfl
  · exact JobRow.Advances.refl job

private theorem syncJobTotals_advances (t : Totals) (job : JobRow) :
    job.Advances (syncJobTotals t job) := by
  unfold syncJobTotals
  split
  · rename_i running
    apply JobRow.advances_of_active
    · rw [running]
      rfl
    · exact id
    · left
      rfl
  · exact JobRow.Advances.refl job

private theorem reconcile_advances (seen : JobStatus) (execution : Option WorkflowExecutionStatus)
    (t : Totals) (job : JobRow) : job.Advances (reconcile seen execution t job) := by
  unfold reconcile
  split
  · exact finalize_advances t _ true job
  · split
    · exact JobRow.Advances.refl job
    · exact recordStarted_advances job

theorem JobRow.write_advances (job : JobRow) (statement : JobWrite) :
    job.Advances (job.write statement) := by
  cases statement with
  | startFailed message => exact startFailed_advances message job
  | startRecorded => exact recordStarted_advances job
  | markJobRunning => exact recordStarted_advances job
  | pause => exact recordSignal_advances .paused pausable (by decide) job
  | resume => exact recordSignal_advances .running resumable (by decide) job
  | cancel counts => exact recordCancel_advances counts job
  | finalize t o => exact finalize_advances t o false job
  | reconcile seen execution t => exact reconcile_advances seen execution t job
  | syncTotals t => exact syncJobTotals_advances t job

theorem JobRow.writes_advances (job : JobRow) (statements : List JobWrite) :
    job.Advances (job.writes statements) := by
  induction statements generalizing job with
  | nil => exact JobRow.Advances.refl job
  | cons statement rest ih =>
      have first := job.write_advances statement
      have later := ih (job.write statement)
      constructor
      · exact first.precedes.trans later.precedes
      · intro shown
        exact later.errorShown (first.errorShown shown)

/-- In every interleaving of the writers, at every two points of it: what is
cancelled stays cancelled, what is terminal stays terminal, a recorded error
stays recorded, and a job with a recorded error is failed or cancelled. -/
theorem writers_keep_lifecycle (scheduled : Bool) (early late : List JobWrite) :
    ((insertedJob scheduled).writes early).Precedes
        (((insertedJob scheduled).writes early).writes late) ∧
      (((insertedJob scheduled).writes early).lastError ≠ none →
        ((insertedJob scheduled).writes early).status = .failed ∨
          ((insertedJob scheduled).writes early).status = .cancelled) := by
  constructor
  · exact (JobRow.writes_advances _ late).precedes
  · apply (JobRow.writes_advances (insertedJob scheduled) early).errorShown
    intro recorded
    exact absurd rfl recorded

end MigrationPlatform.Lifecycle
