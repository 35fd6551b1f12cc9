/-
The ingest position that a run hands to its continue-as-new successor, and the
check that a batch continues it (ADR 0002).

Both checks are on data from outside the run: the checkpoint comes with the
workflow input, a batch from a connector. What passes them is stated once here
and used by the chain of runs.
-/

import Mathlib.Tactic.SplitIfs
import MigrationPlatform.Workflow.RowExecution

namespace MigrationPlatform.Workflow

open MigrationPlatform.Connectors

def checkpointVersion : Int := 1

structure Checkpoint where
  version : Int := 0
  sourceVersion : String := ""
  offset : Offset := {}
  nextRowIndex : Int := 0
  processed : Int := 0
  failed : Int := 0
  unresolved : Int := 0
deriving DecidableEq, Repr

def describeOffset (offset : Offset) : String :=
  "\x7bBytes:" ++ toString offset.bytes ++ " Items:" ++ toString offset.items ++
    " SalesforceJobID:" ++ offset.salesforceJobID ++
    " SalesforceLocator:" ++ offset.salesforceLocator ++
    " SalesforceSkip:" ++ toString offset.salesforceSkip ++
    " S3Continuation:" ++ offset.s3Continuation ++ "\x7d"

def Checkpoint.describe (c : Checkpoint) : String :=
  "\x7bVersion:" ++ toString c.version ++ " SourceVersion:" ++ c.sourceVersion ++
    " Offset:" ++ describeOffset c.offset ++ " NextRowIndex:" ++ toString c.nextRowIndex ++
    " Processed:" ++ toString c.processed ++ " Failed:" ++ toString c.failed ++
    " Unresolved:" ++ toString c.unresolved ++ "\x7d"

def Checkpoint.validate (c : Checkpoint) : Option String :=
  if c.version ≠ checkpointVersion then
    some ("checkpoint version " ++ toString c.version ++ " is not supported (want " ++
      toString checkpointVersion ++ ")")
  else if c.nextRowIndex < 0 ∨ c.processed < 0 ∨ c.failed < 0 ∨ c.unresolved < 0 then
    some ("checkpoint has negative position or totals: " ++ c.describe)
  else if c.offset.items ≠ c.nextRowIndex then
    some ("checkpoint offset is at row " ++ toString c.offset.items ++ " but next row index is " ++
      toString c.nextRowIndex)
  else if c.processed + c.failed + c.unresolved > c.nextRowIndex then
    some ("checkpoint counts " ++ toString (c.processed + c.failed + c.unresolved) ++
      " outcomes for " ++ toString c.nextRowIndex ++ " rows")
  else none

theorem Checkpoint.validate_eq_none {c : Checkpoint} :
    c.validate = none ↔
      c.version = checkpointVersion ∧ (0 ≤ c.nextRowIndex ∧ 0 ≤ c.processed ∧ 0 ≤ c.failed ∧
        0 ≤ c.unresolved) ∧ c.offset.items = c.nextRowIndex ∧
      c.processed + c.failed + c.unresolved ≤ c.nextRowIndex := by
  unfold validate
  split_ifs with version negative items counts
  · simp [version]
  · simp only [false_iff, not_and]
    omega
  · simp [items]
  · simp only [false_iff, not_and]
    omega
  · simp only [true_iff]
    omega

inductive MigrationError
  | invalidCheckpoint (message : String)
  | plain (message : String)
deriving DecidableEq, Repr

/-- What the source reference holds under the legacy key: a text that parses as
an offset or not, or a value of another type. -/
inductive LegacyOffset
  | other (typeName : String)
  | text (parsed : Except String Offset)

structure MigrationWorkflowInput where
  jobID : Int
  ruleTemplateVersion : Int := 0
  legacyOffset : Option LegacyOffset := none
  checkpoint : Option Checkpoint := none

def startingCheckpoint (input : MigrationWorkflowInput) : Except MigrationError Checkpoint :=
  match input.checkpoint with
  | some c =>
      match c.validate with
      | some message => .error (.invalidCheckpoint message)
      | none => .ok c
  | none =>
      match input.legacyOffset with
      | none => .ok { version := checkpointVersion }
      | some (.other typeName) =>
          .error (.invalidCheckpoint ("legacy offset is " ++ typeName ++ ", not a string"))
      | some (.text (.error message)) =>
          .error (.invalidCheckpoint ("legacy offset: " ++ message))
      | some (.text (.ok offset)) =>
          .ok { version := checkpointVersion, offset := offset, nextRowIndex := offset.items }

def indexesFrom (next : Int) : Nat → List Int
  | 0 => []
  | count + 1 => next :: indexesFrom (next + 1) count

def misplacedRow : Int → List Row → Option (Int × Int)
  | _, [] => none
  | want, row :: rest =>
      if row.index ≠ want then some (row.index, want) else misplacedRow (want + 1) rest

def checkRowContinuity (next : Int) (rows : List Row) (newOffset : Offset) (done : Bool) :
    Option String :=
  if rows.length = 0 ∧ done = false then
    some ("ingest returned no rows at row " ++ toString next ++ " without finishing")
  else
    match misplacedRow next rows with
    | some (index, want) =>
        some ("ingest returned row " ++ toString index ++ " where row " ++ toString want ++
          " was expected")
    | none =>
        if newOffset.items ≠ next + rows.length then
          some ("ingest offset is at row " ++ toString newOffset.items ++
            " after delivering through row " ++ toString (next + rows.length - 1))
        else none

theorem indexesFrom_length (next : Int) (count : Nat) :
    (indexesFrom next count).length = count := by
  induction count generalizing next with
  | zero => rfl
  | succ count ih =>
      change (indexesFrom (next + 1) count).length + 1 = count + 1
      rw [ih]

theorem indexesFrom_append (next : Int) (count more : Nat) :
    indexesFrom next count ++ indexesFrom (next + count) more = indexesFrom next (count + more) := by
  induction count generalizing next with
  | zero =>
      rw [Nat.zero_add]
      change indexesFrom (next + 0) more = _
      rw [Int.add_zero]
  | succ count ih =>
      rw [Nat.succ_add]
      change next :: (indexesFrom (next + 1) count ++ _) = next :: indexesFrom (next + 1) _
      rw [← ih (next + 1)]
      have position : next + ((count + 1 : Nat) : Int) = next + 1 + count := by omega
      rw [position]

private theorem indexes_of_not_misplaced {next : Int} {rows : List Row}
    (placed : misplacedRow next rows = none) :
    rows.map Row.index = indexesFrom next rows.length := by
  induction rows generalizing next with
  | nil => rfl
  | cons row rest ih =>
      unfold misplacedRow at placed
      split at placed
      · cases placed
      · rename_i index
        change row.index :: rest.map Row.index = next :: indexesFrom (next + 1) rest.length
        rw [ih placed, not_not.mp index]

theorem continuous_of_check {next : Int} {rows : List Row} {newOffset : Offset} {done : Bool}
    (passed : checkRowContinuity next rows newOffset done = none) :
    rows.map Row.index = indexesFrom next rows.length ∧ newOffset.items = next + rows.length ∧
      (rows.length = 0 → done = true) := by
  unfold checkRowContinuity at passed
  split at passed
  · cases passed
  · rename_i progress
    split at passed
    · cases passed
    · rename_i placed
      split at passed
      · cases passed
      · rename_i items
        refine ⟨indexes_of_not_misplaced placed, not_not.mp items, ?_⟩
        intro empty
        cases done with
        | true => rfl
        | false => exact absurd ⟨empty, rfl⟩ progress

end MigrationPlatform.Workflow
