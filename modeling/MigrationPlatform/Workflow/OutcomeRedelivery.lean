/-
Outcomes whose activity is delivered again.

`PersistOutcome` and `PersistStepOutcome` compare the attempt of a call with that
of the last one recorded. A call that comes again at once is not counted and
writes what is there. One that comes again behind the call of a later attempt, as
when its first execution was given up and takes effect late, is counted as a new
attempt and writes over the later outcome.
-/

import MigrationPlatform.Foundation.Redelivery
import MigrationPlatform.Workflow.RowRuns

namespace MigrationPlatform.Workflow

open Redelivery KeyedTable
open MigrationPlatform.Delivery (nullIf)

structure RecordedOutcome where
  status : StepStatus
  lastError : Option String
  payloadJSON : String
  responseJSON : String
deriving DecidableEq, Repr

def StoredRow.outcome (row : StoredRow) : RecordedOutcome :=
  { status := row.status, lastError := row.lastError, payloadJSON := row.payloadJSON
    responseJSON := row.responseJSON }

def StoredStep.outcome (step : StoredStep) : RecordedOutcome :=
  { status := step.status, lastError := step.lastError, payloadJSON := step.requestJSON
    responseJSON := step.responseJSON }

theorem countedAttempt_eq (attemptID : String) (last : Option String) (attempts : Nat) :
    countedAttempt attemptID last attempts =
      if (nullIf attemptID).isSome = true ∧ nullIf attemptID = last then attempts
      else attempts + 1 := rfl

def rowRecorder : Recorder PersistOutcomeInput StoredRow String RecordedOutcome where
  id := fun call => nullIf call.attemptID
  insert := PersistOutcomeInput.inserted
  update := PersistOutcomeInput.updated
  attempts := StoredRow.attempts
  last := StoredRow.lastAttemptID
  data := StoredRow.outcome
  attempts_insert := fun _ => rfl
  attempts_update := fun call row => countedAttempt_eq call.attemptID row.lastAttemptID row.attempts
  last_insert := fun _ => rfl
  last_update := fun _ _ => rfl
  data_update := fun _ _ => rfl

def stepRecorder : Recorder PersistStepOutcomeInput StoredStep String RecordedOutcome where
  id := fun call => nullIf call.attemptID
  insert := PersistStepOutcomeInput.inserted
  update := PersistStepOutcomeInput.updated
  attempts := StoredStep.attempts
  last := StoredStep.lastAttemptID
  data := StoredStep.outcome
  attempts_insert := fun _ => rfl
  attempts_update := fun call step =>
    countedAttempt_eq call.attemptID step.lastAttemptID step.attempts
  last_insert := fun _ => rfl
  last_update := fun _ _ => rfl
  data_update := fun _ _ => rfl

/-! ### The tables as records -/

private theorem lookup_persistOutcomes {index : Int} (calls : List PersistOutcomeInput) :
    ∀ rows : List StoredRow, lookup StoredRow.index index rows = none →
      (∀ call ∈ calls, call.rowIndex = index) →
      lookup StoredRow.index index (calls.foldl persistOutcome rows) =
        rowRecorder.deliver calls := by
  intro rows absent own
  apply Recorder.foldl_deliver absent
  intro rows call member
  rw [← own call member]
  exact lookup_persistOutcome rows call

private theorem lookup_persistStepOutcome_self (steps : List StoredStep)
    (outcome : PersistStepOutcomeInput) :
    lookup StoredStep.key outcome.inserted.key (persistStepOutcome steps outcome) =
      some (((lookup StoredStep.key outcome.inserted.key steps).map outcome.updated).getD
        outcome.inserted) := by
  have keeps : ∀ step, (outcome.updated step).key = step.key := fun _ => rfl
  exact @lookup_upsert_self _ _ _ StoredStep.key outcome.inserted outcome.updated keeps steps

private theorem lookup_persistStepOutcomes {key : Int × Int}
    (calls : List PersistStepOutcomeInput) :
    ∀ steps : List StoredStep, lookup StoredStep.key key steps = none →
      (∀ call ∈ calls, call.inserted.key = key) →
      lookup StoredStep.key key (calls.foldl persistStepOutcome steps) =
        stepRecorder.deliver calls := by
  intro steps absent own
  apply Recorder.foldl_deliver absent
  intro steps call member
  rw [← own call member]
  exact lookup_persistStepOutcome_self steps call

structure AttemptIDs (newest : Nat) (id : Nat → String) : Prop where
  given : ∀ attempt, attempt ≤ newest → id attempt ≠ ""
  apart : ∀ left right, left ≤ newest → right ≤ newest → id left = id right → left = right

theorem AttemptIDs.named {newest : Nat} {id : Nat → String} (ids : AttemptIDs newest id) :
    ∀ attempt, attempt ≤ newest → nullIf (id attempt) = some (id attempt) := by
  intro attempt below
  unfold nullIf
  rw [if_neg (ids.given attempt below)]

/-- `attempts` is the number of attempts and the outcome is that of the newest one. -/
structure RowRecordedOnce (newest : Nat) (calls : Nat → PersistOutcomeInput) (row : StoredRow) :
    Prop where
  attempts : row.attempts = newest + 1
  outcome : row.outcome = (calls newest).inserted.outcome

structure StepRecordedOnce (newest : Nat) (calls : Nat → PersistStepOutcomeInput)
    (step : StoredStep) : Prop where
  attempts : step.attempts = newest + 1
  outcome : step.outcome = (calls newest).inserted.outcome

theorem outcomes_recorded_once_iff (newest : Nat) (order : List Nat)
    (arrives : Arrives (newest + 1) order) :
    (∀ (rows : List StoredRow) (index : Int) (calls : Nat → PersistOutcomeInput),
      lookup StoredRow.index index rows = none →
      (∀ attempt, attempt ≤ newest → (calls attempt).rowIndex = index) →
      AttemptIDs newest (fun attempt => (calls attempt).attemptID) →
      ∃ row, lookup StoredRow.index index ((order.map calls).foldl persistOutcome rows) = some row ∧
        (RowRecordedOnce newest calls row ↔ order.Pairwise (· ≤ ·))) ∧
    ∀ (steps : List StoredStep) (rowIndex stepIndex : Int) (calls : Nat → PersistStepOutcomeInput),
      lookup StoredStep.key (rowIndex, stepIndex) steps = none →
      (∀ attempt, attempt ≤ newest →
        (calls attempt).rowIndex = rowIndex ∧ (calls attempt).stepIndex = stepIndex) →
      AttemptIDs newest (fun attempt => (calls attempt).attemptID) →
      ∃ step, lookup StoredStep.key (rowIndex, stepIndex)
          ((order.map calls).foldl persistStepOutcome steps) = some step ∧
        (StepRecordedOnce newest calls step ↔ order.Pairwise (· ≤ ·)) := by
  constructor
  · intro rows index calls absent own ids
    obtain ⟨row, delivered, once⟩ := @Recorder.recorded_once_iff _ _ _ _ _ rowRecorder order calls
      (fun attempt => (calls attempt).attemptID) newest arrives ids.named ids.apart
    have table := lookup_persistOutcomes (order.map calls) rows absent (by
      intro call member
      obtain ⟨attempt, inside, same⟩ := List.mem_map.mp member
      rw [← same]
      exact own attempt (Nat.le_of_lt_succ (arrives.bound attempt inside)))
    refine ⟨row, table.trans delivered, ?_⟩
    rw [← once]
    exact ⟨fun recorded => ⟨recorded.attempts, recorded.outcome⟩,
      fun recorded => ⟨recorded.attempts, recorded.data⟩⟩
  · intro steps rowIndex stepIndex calls absent own ids
    obtain ⟨step, delivered, once⟩ := @Recorder.recorded_once_iff _ _ _ _ _ stepRecorder order calls
      (fun attempt => (calls attempt).attemptID) newest arrives ids.named ids.apart
    have table := lookup_persistStepOutcomes (order.map calls) steps absent (by
      intro call member
      obtain ⟨attempt, inside, same⟩ := List.mem_map.mp member
      have key := own attempt (Nat.le_of_lt_succ (arrives.bound attempt inside))
      rw [← same]
      exact Prod.ext key.1 key.2)
    refine ⟨step, table.trans delivered, ?_⟩
    rw [← once]
    exact ⟨fun recorded => ⟨recorded.attempts, recorded.outcome⟩,
      fun recorded => ⟨recorded.attempts, recorded.data⟩⟩

def failedThenSucceeded (attempt : Nat) : PersistOutcomeInput :=
  if attempt = 0 then
    { rowIndex := 3, status := .failed, lastError := "status 500", attemptID := "run-1:3" }
  else { rowIndex := 3, status := .succeeded, attemptID := "run-2:3" }

def stepFailedThenSucceeded (attempt : Nat) : PersistStepOutcomeInput :=
  if attempt = 0 then
    { rowIndex := 3, stepIndex := 0, stepName := "create"
      record := { status := .failed, lastError := "status 500" }, attemptID := "run-1:3:0" }
  else
    { rowIndex := 3, stepIndex := 0, stepName := "create", record := { status := .succeeded }
      attemptID := "run-2:3:0" }

private theorem failedThenSucceeded_ids :
    AttemptIDs 1 (fun attempt => (failedThenSucceeded attempt).attemptID) := by
  constructor
  · decide
  · intro left right leftBound rightBound same
    unfold failedThenSucceeded at same
    split at same
    · split at same
      · omega
      · exact absurd same (by decide)
    · split at same
      · exact absurd same (by decide)
      · omega

/-- Calls that come again at once do no harm. -/
theorem redelivered_at_once_recorded :
    ∃ row, lookup StoredRow.index 3
        (([0, 0, 1, 1].map failedThenSucceeded).foldl persistOutcome []) = some row ∧
      RowRecordedOnce 1 failedThenSucceeded row := by
  have arrives : Arrives 2 [0, 0, 1, 1] :=
    ((Arrives.start.first.again (by decide)).first).again (by decide)
  obtain ⟨row, stored, once⟩ := (outcomes_recorded_once_iff 1 [0, 0, 1, 1] arrives).1 [] 3
    failedThenSucceeded rfl (by decide) failedThenSucceeded_ids
  exact ⟨row, stored, once.mpr (by decide)⟩

/-- The first call comes again behind the second: the row and its step are recorded
as failed, in a third attempt. -/
theorem late_redelivery_overwrites :
    Arrives 2 [0, 1, 0] ∧
      (∃ row, lookup StoredRow.index 3
          (([0, 1, 0].map failedThenSucceeded).foldl persistOutcome []) = some row ∧
        row.attempts = 3 ∧ row.status = .failed ∧ row.lastError = some "status 500" ∧
        ¬RowRecordedOnce 1 failedThenSucceeded row) ∧
      ∃ step, lookup StoredStep.key (3, 0)
          (([0, 1, 0].map stepFailedThenSucceeded).foldl persistStepOutcome []) = some step ∧
        step.attempts = 3 ∧ step.status = .failed ∧ step.lastError = some "status 500" ∧
        ¬StepRecordedOnce 1 stepFailedThenSucceeded step := by
  refine ⟨(Arrives.start.first.first).again (by decide), ?_, ?_⟩
  · refine ⟨_, rfl, rfl, rfl, rfl, ?_⟩
    intro once
    exact absurd once.attempts (by decide)
  · refine ⟨_, rfl, rfl, rfl, rfl, ?_⟩
    intro once
    exact absurd once.attempts (by decide)

end MigrationPlatform.Workflow
