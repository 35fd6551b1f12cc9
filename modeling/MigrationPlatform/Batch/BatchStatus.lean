/-
The writers of `batches.status` for one batch.

`create_batch` and the watch workflow start `BatchWorkflow` and then record the
start, while the workflow is already on its way; the workflow marks itself
running and records its outcome. Every statement is unconditional, so the last
one decides. A step of the model is one statement, or the start of the workflow
by the Temporal service, which a start call may hide behind an error.
-/

import MigrationPlatform.Batch.StageDag
import MigrationPlatform.Foundation.GuardedRuns

namespace MigrationPlatform.Batch

open GuardedRuns

inductive BatchStatus
  | pending
  | running
  | succeeded
  | failed
  | partially
  | quarantined
deriving DecidableEq, Repr

structure BatchRow where
  status : BatchStatus
  temporalRunID : Option String
  finished : Bool
deriving DecidableEq, Repr

def insertedBatch : BatchRow := { status := .pending, temporalRunID := none, finished := false }

def createStartFailed (row : BatchRow) : BatchRow :=
  { row with status := .failed, finished := true }

def createStarted (runID : String) (row : BatchRow) : BatchRow :=
  { row with status := .running, temporalRunID := some runID }

def markBatchRunning (runID : String) (row : BatchRow) : BatchRow :=
  { row with status := .running, temporalRunID := some runID }

def quarantineArchive (row : BatchRow) : BatchRow :=
  { row with status := .quarantined, finished := true }

def finalizedStatus (status : String) : BatchStatus :=
  if toLower status = "succeeded" then .succeeded
  else if toLower status = "failed" then .failed
  else if toLower status = "partial" then .partially
  else if toLower status = "quarantined" then .quarantined
  else .failed

def finalizeBatch (status : String) (row : BatchRow) : BatchRow :=
  { row with status := finalizedStatus status, finished := true }

def batchOutcome (stagesOK stagesFailed : Nat) : String :=
  if 0 < stagesFailed ∧ 0 < stagesOK then "partial"
  else if 0 < stagesFailed then "failed"
  else "succeeded"

/-! ### Interleavings -/

/-- `started` is the Temporal service's view; `recorded` is the outcome that
the workflow has last written. -/
structure BatchState where
  row : BatchRow
  started : Bool
  recorded : Option BatchStatus
deriving DecidableEq, Repr

def BatchState.inserted : BatchState :=
  { row := insertedBatch, started := false, recorded := none }

/-- `parentMarksRunning` is `MarkBatchRunning` called by the watch workflow,
`workflowMarksRunning` by `BatchWorkflow`, which counts its stages before it
finalizes. -/
inductive BatchStep
  | startWorkflow
  | startRefused
  | startRecorded (runID : String)
  | parentMarksRunning (runID : String)
  | workflowMarksRunning (runID : String)
  | quarantine
  | finalize (stagesOK stagesFailed : Nat)
deriving DecidableEq, Repr

/-- Only the start and its refusal can come before the workflow exists. The
steps may repeat: activities are retried and a failed workflow is run again. -/
def BatchState.step (s : BatchState) : BatchStep → Option BatchState
  | .startWorkflow => some { s with started := true }
  | .startRefused => some { s with row := createStartFailed s.row }
  | .startRecorded runID =>
      if s.started then some { s with row := createStarted runID s.row } else none
  | .parentMarksRunning runID =>
      if s.started then some { s with row := markBatchRunning runID s.row } else none
  | .workflowMarksRunning runID =>
      if s.started then some { s with row := markBatchRunning runID s.row } else none
  | .quarantine =>
      if s.started then
        some { s with row := quarantineArchive s.row, recorded := some .quarantined }
      else none
  | .finalize stagesOK stagesFailed =>
      if s.started then
        some { s with
          row := finalizeBatch (batchOutcome stagesOK stagesFailed) s.row
          recorded := some (finalizedStatus (batchOutcome stagesOK stagesFailed)) }
      else none

structure StaysFinished (s : BatchState) : Prop where
  notRunning : s.recorded ≠ none → s.row.status ≠ .running
  notFailed : s.recorded = some .succeeded → s.row.status ≠ .failed

/-- A statement that says running comes before any outcome, and the one for a
refused start does not come behind a success. -/
def InTime (s : BatchState) : BatchStep → Prop
  | .startRefused => s.recorded ≠ some .succeeded
  | .startRecorded _ => s.recorded = none
  | .parentMarksRunning _ => s.recorded = none
  | .workflowMarksRunning _ => s.recorded = none
  | .startWorkflow => True
  | .quarantine => True
  | .finalize _ _ => True

private theorem finalizedStatus_ne_running (status : String) :
    finalizedStatus status ≠ .running := by
  unfold finalizedStatus
  split_ifs <;> simp

theorem staysFinished_running_iff {recorded : Option BatchStatus} {started finished : Bool}
    {runID : Option String} :
    StaysFinished { row := { status := .running, temporalRunID := runID, finished := finished },
                    started := started, recorded := recorded } ↔ recorded = none := by
  constructor
  · intro holds
    by_contra outcome
    exact holds.notRunning outcome rfl
  · intro none
    constructor
    · intro outcome
      exact absurd none outcome
    · intro _succeeded impossible
      cases impossible

theorem staysFinished_of_recorded (row : BatchRow) (started : Bool)
    (settled : row.status ≠ .running) :
    StaysFinished { row := row, started := started, recorded := some row.status } := by
  constructor
  · intro _outcome
    exact settled
  · intro succeeded failed
    rw [failed] at succeeded
    cases succeeded

theorem BatchState.step_staysFinished (s : BatchState) (action : BatchStep) (next : BatchState)
    (holds : StaysFinished s) (taken : s.step action = some next) :
    StaysFinished next ↔ InTime s action := by
  cases action with
  | startWorkflow =>
      cases taken
      exact iff_of_true ⟨holds.notRunning, holds.notFailed⟩ trivial
  | startRefused =>
      cases taken
      constructor
      · intro after succeeded
        exact after.notFailed succeeded rfl
      · intro inTime
        constructor
        · intro _outcome impossible
          cases impossible
        · intro succeeded
          exact absurd succeeded inTime
  | startRecorded runID =>
      simp only [BatchState.step] at taken
      split at taken
      · cases taken
        exact staysFinished_running_iff
      · cases taken
  | parentMarksRunning runID =>
      simp only [BatchState.step] at taken
      split at taken
      · cases taken
        exact staysFinished_running_iff
      · cases taken
  | workflowMarksRunning runID =>
      simp only [BatchState.step] at taken
      split at taken
      · cases taken
        exact staysFinished_running_iff
      · cases taken
  | quarantine =>
      simp only [BatchState.step] at taken
      split at taken
      · cases taken
        have kept := staysFinished_of_recorded (quarantineArchive s.row) s.started nofun
        exact iff_of_true kept trivial
      · cases taken
  | finalize stagesOK stagesFailed =>
      simp only [BatchState.step, finalizeBatch] at taken
      split at taken
      · have settled := finalizedStatus_ne_running (batchOutcome stagesOK stagesFailed)
        -- what the status is made of does not matter any more
        generalize finalizedStatus (batchOutcome stagesOK stagesFailed) = status at taken settled
        cases taken
        exact iff_of_true (staysFinished_of_recorded _ s.started settled) trivial
      · cases taken

/-- In every interleaving of the writers, a finished batch stays finished all
along exactly where every late writer is in time. -/
theorem batch_stays_finished_iff {history : List BatchStep} {final : BatchState}
    (ran : run BatchState.step .inserted history = some final) :
    (∀ early late reached, history = early ++ late →
      run BatchState.step .inserted early = some reached → StaysFinished reached) ↔
      Obeys BatchState.step InTime .inserted history := by
  apply throughout_iff_obeys BatchState.step_staysFinished history .inserted final _ ran
  constructor
  · intro outcome
    exact absurd rfl outcome
  · intro impossible
    cases impossible

theorem prompt_batch_stays_finished :
    ∃ final, run BatchState.step .inserted
        [.startWorkflow, .startRecorded "run", .workflowMarksRunning "run", .finalize 2 0] =
          some final ∧
      ((∀ early late reached,
        [.startWorkflow, .startRecorded "run", .workflowMarksRunning "run", .finalize 2 0] =
            early ++ late →
          run BatchState.step .inserted early = some reached → StaysFinished reached) ↔
        Obeys BatchState.step InTime .inserted
          [.startWorkflow, .startRecorded "run", .workflowMarksRunning "run", .finalize 2 0]) :=
  ⟨_, rfl, batch_stays_finished_iff rfl⟩

/-- A workflow that finishes before the start call is answered is put back to
running by the answer, and to failed by an error in its place. -/
theorem late_start_reopens_batch :
    (∃ reached, run BatchState.step .inserted
        [.startWorkflow, .workflowMarksRunning "run", .finalize 2 0, .startRecorded "run"] =
          some reached ∧
      reached.recorded = some .succeeded ∧ reached.row.status = .running ∧
        ¬StaysFinished reached) ∧
    ∃ reached, run BatchState.step .inserted
        [.startWorkflow, .workflowMarksRunning "run", .finalize 2 0, .startRefused] =
          some reached ∧
      reached.recorded = some .succeeded ∧ reached.row.status = .failed ∧
        ¬StaysFinished reached :=
  ⟨⟨_, rfl, by decide, rfl, fun stays => stays.notRunning (by decide) rfl⟩,
    ⟨_, rfl, by decide, rfl, fun stays => stays.notFailed (by decide) rfl⟩⟩

end MigrationPlatform.Batch
