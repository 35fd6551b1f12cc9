/-
The outcome of a stage against the outcome of its job.

A batch judges a stage by what its child `MigrationWorkflow` returns, while
`FinalizeJob` derives the status of the job from the stored rows and the error
of the run. What the two have in common is counted twice, in memory and in the
database; what they do not have in common is left to decide where they differ.
-/

import MigrationPlatform.Batch.StageDag
import MigrationPlatform.Lifecycle.StoredChain

namespace MigrationPlatform.Batch

open GuardedRuns
open MigrationPlatform.Connectors MigrationPlatform.Delivery
open MigrationPlatform.Workflow MigrationPlatform.Lifecycle

def maxJobErrorLen : Nat := 2000

/-- A text cut behind so many bytes, as JSON carries it: what is left of a
character that the cut divides arrives as one replacement character a byte. -/
def cutText : Nat → List Char → List Char
  | _, [] => []
  | budget, char :: rest =>
      if char.utf8Size ≤ budget then char :: cutText (budget - char.utf8Size) rest
      else List.replicate budget (Char.ofNat 0xFFFD)

def failureMessage (message : String) : String :=
  if maxJobErrorLen < message.utf8ByteSize then
    String.ofList (cutText maxJobErrorLen message.toList)
  else message

/-- `canceled` says that the error is a cancellation or that the context of the
run was cancelled. -/
def jobOutcome (canceled : Bool) : Option String → Outcome
  | none => {}
  | some message =>
      if canceled = true then { cancelled := true } else { error := failureMessage message }

structure ExportEnv where
  started : Option String := none
  exported : Option String := none
  failureRecorded : Option String := none

def exportResults (env : ExportEnv) : Option String :=
  match env.started with
  | some message => some ("record export started: " ++ message)
  | none =>
      match env.exported with
      | none => none
      | some _ => env.failureRecorded.map (fun message => "record export failure: " ++ message)

/-- What `finishJob` sees. `finalizeOnExit` is false in histories recorded
before the change of that name. -/
structure FinishEnv where
  finalizeOnExit : Bool := true
  canceled : Bool := false
  finalized : ActivityEnd := {}
  results : ExportEnv := {}

def finalizeJob (ended : ActivityEnd) (rows : List StoredRow) (o : Outcome) (job : JobRow) :
    JobRow :=
  if ended.applied = true then finalize (countRows rows) o false job else job

def finishJob (rows : List StoredRow) (job : JobRow) (env : FinishEnv) (runErr : Option String) :
    JobRow × Option String :=
  if env.finalizeOnExit = false then
    match runErr with
    | none => (finalizeJob env.finalized rows {} job, none)
    | some message => (job, some message)
  else
    (finalizeJob env.finalized rows (jobOutcome env.canceled runErr) job,
      match env.finalized.error, runErr with
      | some problem, some message =>
          some (message ++ " (and finalize job failed: " ++ problem ++ ")")
      | some problem, none => some ("finalize job: " ++ problem)
      | none, some message => some message
      | none, none => exportResults env.results)

/-- The end of the child: what `finishJob` sees, and the error with which the
server closes an execution that did not return. -/
structure ChildExit where
  finish : FinishEnv := {}
  closed : Option String := none

def runEnd : ChainPhase → Option (Except String MigrationWorkflowResult)
  | .starting => none
  | .looping _ => none
  | .completed run => some (.ok run.result)
  | .failed err => some (.error (errorText err))

/-- No code sets `cancelled`. -/
def childResult (result : MigrationWorkflowResult) : ChildResult :=
  { failed := result.failed.toNat, unresolved := result.unresolved.toNat, cancelled := false }

/-- The job behind the child and what the parent learns of it. An execution can
be closed before it gets to `finishJob`, and then nothing is recorded. -/
def childEnd (s : StoredChain) (exit : ChildExit) :
    Option (JobRow × Except String ChildResult) :=
  match runEnd s.chain.phase, exit.closed with
  | none, none => none
  | none, some message => some (s.job, .error message)
  | some (.error err), closed =>
      let finished := finishJob s.store.rows s.job exit.finish (some err)
      some (finished.1, .error (closed.getD (finished.2.getD err)))
  | some (.ok _), some message =>
      some ((finishJob s.store.rows s.job exit.finish none).1, .error message)
  | some (.ok result), none =>
      let finished := finishJob s.store.rows s.job exit.finish none
      match finished.2 with
      | some message => some (finished.1, .error message)
      | none => some (finished.1, .ok (childResult result))

structure StageEnd where
  ok : Bool
  shouldStop : Bool
deriving DecidableEq, Repr

def endStage (env : StageEnv) (st : ResolvedStage) (jobID : Int) (error : Option String) :
    Except String StageEnd :=
  match env.finalizeBatchStage
      { stageRowID := st.stageRowID, jobID := jobID, status := settledStatus error
        error := error.getD "" } with
  | some problem =>
      .error ("finalize batch stage " ++ toString st.stageRowID ++ ": " ++ problem)
  | none =>
      .ok
        { ok := error.isNone
          shouldStop := error.isSome && decide (st.onFailure ≠ "continue") }

def runOneStage (env : StageEnv) (st : ResolvedStage) : Except String StageEnd :=
  match env.startBatchStageJob st with
  | .error message => endStage env st 0 (some message)
  | .ok jobID =>
      match env.startChild st with
      | .error e =>
          if e.isAlreadyStarted = true then endStage env st jobID (stageError (env.child st))
          else endStage env st jobID (some e.message)
      | .ok runID =>
          match env.markJobRunning jobID runID with
          | some problem => .error ("mark stage job running: " ++ problem)
          | none => endStage env st jobID (stageError (env.child st))

/-- The batch has recorded the stage, whose child ran for `jobID`, as succeeded
or not: behind the wave it was in, or behind the stage alone. -/
inductive Records (env : StageEnv) (st : ResolvedStage) (jobID : Int) : Bool → Prop
  | wave (dag next : Dag) (waited : waitStage env dag { st := st, jobID := jobID } = .ok next) :
      Records env st jobID (decide (next.status st.stageKey = some .succeeded))
  | alone (runID : String) (ended : StageEnd) (created : env.startBatchStageJob st = .ok jobID)
      (started : env.startChild st = .ok runID) (ran : runOneStage env st = .ok ended) :
      Records env st jobID ended.ok

private theorem settled_status (dag : Dag) (st : ResolvedStage) (error : Option String) :
    (dag.settle st error).status st.stageKey = some .succeeded ↔ error = none := by
  cases error with
  | none =>
      change Function.update dag.status st.stageKey _ st.stageKey = _ ↔ _
      rw [Function.update_self]
      exact ⟨fun _ => rfl, fun _ => rfl⟩
  | some message =>
      change Function.update dag.status st.stageKey _ st.stageKey = _ ↔ _
      rw [Function.update_self]
      exact ⟨nofun, nofun⟩

private theorem endStage_ok {env : StageEnv} {st : ResolvedStage} {jobID : Int}
    {error : Option String}
    {ended : StageEnd} (recorded : endStage env st jobID error = .ok ended) :
    ended.ok = error.isNone := by
  unfold endStage at recorded
  split at recorded
  · cases recorded
  · cases recorded
    rfl

private theorem Records.iff_stageError {env : StageEnv} {st : ResolvedStage} {jobID : Int}
    {succeeded : Bool} (records : Records env st jobID succeeded) :
    succeeded = true ↔ stageError (env.child st) = none := by
  cases records with
  | wave dag next waited =>
      unfold waitStage settleStage finalizeBatchStage at waited
      split at waited
      · cases waited
      · cases waited
        rw [decide_eq_true_iff]
        exact settled_status _ st (stageError (env.child st))
  | alone runID ended created started ran =>
      unfold runOneStage at ran
      simp only [created, started] at ran
      split at ran
      · cases ran
      · rw [endStage_ok ran]
        exact Option.isNone_iff_eq_none

def ReadClean (s : StoredChain) : Prop :=
  ∃ run, s.chain.phase = .completed run ∧ run.result.failed = 0 ∧ run.result.unresolved = 0

def Answered (exit : ChildExit) : Prop :=
  exit.closed = none ∧
    (exit.finish.finalizeOnExit = true →
      exit.finish.finalized.error = none ∧ exportResults exit.finish.results = none)

/-- `FinalizeJob` was executed, on a job with rows that nobody had cancelled and
that carried no error. -/
structure Recordable (s : StoredChain) (exit : ChildExit) : Prop where
  executed : exit.finish.finalized.applied = true
  rows : s.chain.handed ≠ []
  notCancelled : s.job.status ≠ .cancelled
  noError : s.job.lastError = none

private theorem cutText_ne_nil {budget : Nat} (room : 4 ≤ budget) {text : List Char}
    (given : text ≠ []) :
    cutText budget text ≠ [] := by
  cases text with
  | nil => exact absurd rfl given
  | cons char rest =>
      have size := Char.utf8Size_le_four char
      unfold cutText
      rw [if_pos (Nat.le_trans size room)]
      exact List.cons_ne_nil _ _

private theorem failureMessage_ne_empty {message : String} (given : message ≠ "") :
    failureMessage message ≠ "" := by
  unfold failureMessage
  split
  · intro empty
    have noText : message.toList ≠ [] := by
      intro nil
      exact given (String.toList_eq_nil_iff.mp nil)
    apply cutText_ne_nil (by decide : 4 ≤ maxJobErrorLen) noText
    have same := congrArg String.toList empty
    rwa [String.toList_ofList] at same
  · exact given

private theorem finishJob_failed {rows : List StoredRow} {job : JobRow} (env : FinishEnv)
    {err : String} (named : err ≠ "") (unfinished : job.status ≠ .succeeded) :
    (finishJob rows job env (some err)).1.status ≠ .succeeded := by
  unfold finishJob
  split
  · exact unfinished
  · change (finalizeJob env.finalized rows (jobOutcome env.canceled (some err)) job).status ≠ _
    unfold finalizeJob
    split
    · intro succeeded
      have records := (finalize_succeeded_iff _ _ (Or.inl rfl)).mp succeeded
      cases canceled : env.canceled with
      | true =>
          have notCancelled := records.notCancelled
          rw [canceled] at notCancelled
          cases notCancelled
      | false =>
          have error := records.error
          rw [canceled] at error
          exact failureMessage_ne_empty named error
    · exact unfinished

private theorem finishJob_completed_job (rows : List StoredRow) (job : JobRow) (env : FinishEnv) :
    (finishJob rows job env none).1 = finalizeJob env.finalized rows {} job := by
  unfold finishJob
  split
  · rfl
  · rfl

theorem finishJob_completed_error (rows : List StoredRow) (job : JobRow) (env : FinishEnv) :
    (finishJob rows job env none).2 = none ↔
      (env.finalizeOnExit = true →
        env.finalized.error = none ∧ exportResults env.results = none) := by
  unfold finishJob
  cases env.finalizeOnExit with
  | false =>
      rw [if_pos rfl]
      exact ⟨fun _ => nofun, fun _ => rfl⟩
  | true =>
      rw [if_neg nofun]
      cases env.finalized.error with
      | some problem =>
          constructor
          · exact nofun
          · intro answered
            cases (answered rfl).1
      | none =>
          constructor
          · intro exported _
            exact ⟨rfl, exported⟩
          · intro answered
            exact (answered rfl).2

section Ended

variable {s : StoredChain} {exit : ChildExit} {job : JobRow} {child : Except String ChildResult}

theorem counted_of_completed (sound : s.Sound) {run : MigrationRun}
    (completed : s.chain.phase = .completed run) :
    CountsStored run.cp.nextRowIndex run.result s.store.rows := by
  have counted := sound.counted
  unfold StoredChain.Counted at counted
  rw [completed] at counted
  rw [(sound.ingest.run_stands (Or.inr completed)).result]
  exact counted

private theorem stored_length (sound : s.Sound) {run : MigrationRun}
    (completed : s.chain.phase = .completed run) :
    s.store.rows.length = s.chain.handed.length := by
  have counted := counted_of_completed sound completed
  have stands := sound.ingest.run_stands (Or.inr completed)
  have total := stands.cp.total
  rw [← stands.result] at total
  unfold MigrationWorkflowResult.total at total
  rw [counted.processed, counted.failed, counted.unresolved] at total
  have rows := rowsWith_total s.store.rows
  omega

theorem job_succeeded_of_completed (sound : s.Sound) {run : MigrationRun}
    (completed : s.chain.phase = .completed run) :
    (finishJob s.store.rows s.job exit.finish none).1.status = .succeeded ↔
      ReadClean s ∧ Recordable s exit := by
  have counted := counted_of_completed sound completed
  have length := stored_length sound completed
  have failed := counted.failed
  have unresolved := counted.unresolved
  rw [finishJob_completed_job]
  unfold finalizeJob
  split
  · rename_i applied
    rw [finalize_succeeded_iff _ _ (Or.inl rfl)]
    constructor
    · intro records
      have noFailed : rowsWith .failed s.store.rows = 0 := records.failed
      have noUnresolved : rowsWith .unresolved s.store.rows = 0 := records.unresolved
      refine ⟨⟨run, completed, ?_, ?_⟩, applied, ?_, records.jobNotCancelled, records.jobError⟩
      · omega
      · omega
      · intro empty
        rw [empty] at length
        exact records.total length
    · rintro ⟨⟨other, same, noFailed, noUnresolved⟩, recordable⟩
      rw [completed] at same
      cases same
      have handed : s.chain.handed.length ≠ 0 := by
        intro empty
        exact recordable.rows (List.length_eq_zero_iff.mp empty)
      constructor
      · change rowsWith .failed s.store.rows = 0
        omega
      · change rowsWith .unresolved s.store.rows = 0
        omega
      · change s.store.rows.length ≠ 0
        omega
      · rfl
      · rfl
      · exact recordable.notCancelled
      · exact recordable.noError
  · rename_i unapplied
    constructor
    · intro succeeded
      exact absurd succeeded sound.unfinished
    · rintro ⟨_, recordable⟩
      exact absurd recordable.executed unapplied

theorem childEnd_running (running : runEnd s.chain.phase = none)
    (ended : childEnd s exit = some (job, child)) :
    job = s.job ∧ ∃ message, child = .error message := by
  unfold childEnd at ended
  rw [running] at ended
  cases closed : exit.closed with
  | none =>
      rw [closed] at ended
      cases ended
  | some message =>
      rw [closed] at ended
      cases ended
      exact ⟨rfl, message, rfl⟩

theorem childEnd_cases (ended : childEnd s exit = some (job, child)) :
    (runEnd s.chain.phase = none ∧ job = s.job ∧ ∃ message, child = .error message) ∨
      (∃ err message, s.chain.phase = .failed err ∧
        job = (finishJob s.store.rows s.job exit.finish (some (errorText err))).1 ∧
        child = .error message) ∨
      ∃ run, s.chain.phase = .completed run ∧
        job = (finishJob s.store.rows s.job exit.finish none).1 ∧
        ((¬Answered exit ∧ ∃ message, child = .error message) ∨
          (Answered exit ∧ child = .ok (childResult run.result))) := by
  cases phase : s.chain.phase with
  | starting =>
      have running : runEnd s.chain.phase = none := by rw [phase]; rfl
      exact Or.inl ⟨rfl, childEnd_running running ended⟩
  | looping run =>
      have running : runEnd s.chain.phase = none := by rw [phase]; rfl
      exact Or.inl ⟨rfl, childEnd_running running ended⟩
  | failed err =>
      unfold childEnd at ended
      rw [phase] at ended
      cases ended
      exact Or.inr (Or.inl ⟨err, _, rfl, rfl, rfl⟩)
  | completed run =>
      unfold childEnd at ended
      rw [phase] at ended
      refine Or.inr (Or.inr ⟨run, rfl, ?_⟩)
      cases closed : exit.closed with
      | some message =>
          rw [closed] at ended
          cases ended
          refine ⟨rfl, Or.inl ⟨?_, message, rfl⟩⟩
          intro answered
          rw [answered.1] at closed
          cases closed
      | none =>
          rw [closed] at ended
          simp only [runEnd] at ended
          split at ended
          · rename_i message problem
            cases ended
            refine ⟨rfl, Or.inl ⟨?_, message, rfl⟩⟩
            intro answered
            rw [(finishJob_completed_error _ _ _).mpr answered.2] at problem
            cases problem
          · rename_i clean
            cases ended
            exact ⟨rfl, Or.inr ⟨⟨closed, (finishJob_completed_error _ _ _).mp clean⟩, rfl⟩⟩

theorem stage_succeeded_iff (sound : s.Sound) (ended : childEnd s exit = some (job, child))
    (wrap : String → String) :
    stageError (child.mapError wrap) = none ↔ ReadClean s ∧ Answered exit := by
  have notRead : (∀ run, s.chain.phase ≠ .completed run) → ¬ReadClean s := by
    rintro never ⟨run, completed, _⟩
    exact never run completed
  rcases childEnd_cases ended with ⟨running, _, message, rfl⟩ | ⟨err, message, failed, _, rfl⟩ |
    ⟨run, completed, _, ⟨unanswered, message, rfl⟩ | ⟨answered, rfl⟩⟩
  · constructor
    · exact nofun
    · rintro ⟨clean, _⟩
      refine absurd clean (notRead ?_)
      intro run completed
      rw [completed] at running
      cases running
  · constructor
    · exact nofun
    · rintro ⟨clean, _⟩
      refine absurd clean (notRead ?_)
      intro run completed
      rw [completed] at failed
      cases failed
  · constructor
    · exact nofun
    · rintro ⟨_, answered⟩
      exact absurd answered unanswered
  · have counted := counted_of_completed sound completed
    have failed := counted.failed
    have unresolved := counted.unresolved
    change (if 0 < run.result.failed.toNat ∨ 0 < run.result.unresolved.toNat ∨ false = true then
      some _ else none) = none ↔ _
    split
    · rename_i dirty
      constructor
      · exact nofun
      · rintro ⟨⟨other, same, noFailed, noUnresolved⟩, _⟩
        rw [completed] at same
        cases same
        simp only [Bool.false_eq_true, or_false] at dirty
        omega
    · rename_i clean
      constructor
      · intro _succeeded
        refine ⟨⟨run, completed, ?_, ?_⟩, answered⟩
        · omega
        · omega
      · intro _clean
        rfl

private theorem job_succeeded_iff (sound : s.Sound) (ended : childEnd s exit = some (job, child)) :
    job.status = .succeeded ↔ ReadClean s ∧ Recordable s exit := by
  rcases childEnd_cases ended with ⟨running, rfl, _⟩ | ⟨err, message, failed, rfl, _⟩ |
    ⟨run, completed, rfl, _⟩
  · constructor
    · intro succeeded
      exact absurd succeeded sound.unfinished
    · rintro ⟨⟨run, completed, _⟩, _⟩
      rw [completed] at running
      cases running
  · have named : errorText err ≠ "" := by
      have counted := sound.counted
      unfold StoredChain.Counted at counted
      rw [failed] at counted
      exact counted
    constructor
    · intro succeeded
      exact absurd succeeded (finishJob_failed exit.finish named sound.unfinished)
    · rintro ⟨⟨run, completed, _⟩, _⟩
      rw [completed] at failed
      cases failed
  · exact job_succeeded_of_completed sound completed

end Ended

/-! ### Agreement -/

/-- Stage and job both need a clean read. Beyond that they ask different
questions, and agree where the answers do. -/
theorem stage_agrees_with_job_iff (sha256Hex : String → String)
    (describe : ActivityError → String) (wrap : String → String) (jobID templateVersion : Int)
    (actions : List StoredAction) (named : ∀ action ∈ actions, SleepsNamed action)
    (s : StoredChain)
    (ran : run (StoredChain.step sha256Hex describe true)
      (StoredChain.fresh jobID templateVersion) actions = some s)
    (exit : ChildExit) (job : JobRow) (child : Except String ChildResult)
    (ended : childEnd s exit = some (job, child)) (env : StageEnv) (st : ResolvedStage)
    (learned : env.child st = child.mapError wrap) (succeeded : Bool)
    (records : Records env st jobID succeeded) :
    (succeeded = true ↔ ReadClean s ∧ Answered exit) ∧
      (job.status = .succeeded ↔ ReadClean s ∧ Recordable s exit) ∧
      ((succeeded = true ↔ job.status = .succeeded) ↔
        (ReadClean s → (Answered exit ↔ Recordable s exit))) := by
  have sound := stored_run named ran
  have stage : succeeded = true ↔ ReadClean s ∧ Answered exit := by
    rw [records.iff_stageError, learned]
    exact stage_succeeded_iff sound ended wrap
  have finalized := job_succeeded_iff sound ended
  refine ⟨stage, finalized, ?_⟩
  rw [stage, finalized]
  constructor
  · intro agree clean
    constructor
    · intro answered
      exact (agree.mp ⟨clean, answered⟩).2
    · intro recordable
      exact (agree.mpr ⟨clean, recordable⟩).2
  · intro agree
    exact and_congr_right agree

def contacts : ResolvedStage :=
  { stageRowID := 31, stageKey := "contacts", onFailure := "stop", dependsOn := [] }

def contactsEnv (child : Except String ChildResult) : StageEnv :=
  { startBatchStageJob := fun _ => .ok 7
    startChild := fun _ => .ok "run-1"
    child := fun _ => child
    markJobRunning := fun _ _ => none
    finalizeBatchStage := fun _ => none }

def stageSha256 (text : String) : String :=
  if text = "7-0-main-\x7b\"n\":1\x7d" then
    "6384ac3a58f1b4dbe0625b31da76138ab69a60c7bca633e62118b6b060b13637"
  else createSha256 text

def oneRowStage : List StoredAction :=
  [.start "run-1" none (.ok createTemplate), .write .markJobRunning,
    .round (ingestRound
      { rows := [{ index := 0, data := [] }], newOffset := { items := 1 }, done := true } calm
      [201]) false]

theorem one_row_stage_agrees :
    ∃ s job child,
      run (StoredChain.step stageSha256 describeError true) (StoredChain.fresh 7 0) oneRowStage =
        some s ∧
      childEnd s {} = some (job, child) ∧ Records (contactsEnv child) contacts 7 true ∧
      (true = true ↔ job.status = .succeeded) := by
  refine ⟨_, _, _, rfl, rfl, .alone "run-1" ⟨true, false⟩ rfl rfl rfl, ?_⟩
  apply (stage_agrees_with_job_iff stageSha256 describeError id 7 0 oneRowStage ?_ _ rfl {} _ _ rfl
    (contactsEnv _) contacts rfl true (.alone "run-1" ⟨true, false⟩ rfl rfl rfl)).2.2.mpr
  · intro _clean
    constructor
    · intro _answered
      exact ⟨rfl, List.cons_ne_nil _ _, nofun, rfl⟩
    · intro _recordable
      exact ⟨rfl, fun _ => ⟨rfl, rfl⟩⟩
  · decide

/-- A source without rows. The child returns its zero counts without an error,
and the stage succeeds, while `FinalizeJob` fails a job that has no rows. -/
def emptyStage : List StoredAction :=
  [.start "run-1" none (.ok createTemplate), .write .markJobRunning,
    .round (ingestRound { done := true } calm []) false]

theorem empty_stage_succeeds_job_fails :
    ∃ s job child,
      run (StoredChain.step stageSha256 describeError true) (StoredChain.fresh 7 0) emptyStage =
        some s ∧
      childEnd s {} = some (job, child) ∧ Records (contactsEnv child) contacts 7 true ∧
      job.status = .failed ∧ ¬(true = true ↔ job.status = .succeeded) := by
  refine ⟨_, _, _, rfl, rfl, .alone "run-1" ⟨true, false⟩ rfl rfl rfl, rfl, ?_⟩
  intro agree
  cases agree.mp rfl

end MigrationPlatform.Batch
