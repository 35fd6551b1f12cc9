/-
A chain of runs together with the rows it stores and the row of its job.

The totals of a run live in its memory and cross to the next run in the
checkpoint, while the database has one row for every row handed on. Both
count the same outcomes: a row is stored once, under an index that no earlier
row has. Other writers of the job interleave at will, but none of them can
record a success while the chain runs.
-/

import MigrationPlatform.Lifecycle.JobOutcome
import MigrationPlatform.Workflow.IngestOnce
import MigrationPlatform.Workflow.RowRetry

namespace MigrationPlatform.Lifecycle

open GuardedRuns KeyedTable
open MigrationPlatform.Connectors MigrationPlatform.Delivery MigrationPlatform.Workflow

structure StoredChain where
  chain : ChainState
  runID : String := ""
  store : RowStore := {}
  job : JobRow := insertedJob false

/-- The rows of a round that are handed to `processOneRow`, as far as the round
gets to them. -/
def roundRows (checkpointed : Bool) (run : MigrationRun) (env : RoundEnv) : List Row :=
  match env.pauseSleep, env.ingest with
  | none, .ok out =>
      if out.pending = true then []
      else
        match if checkpointed = true then
            checkRowContinuity run.cp.nextRowIndex out.rows out.newOffset out.done
          else none with
        | some _ => []
        | none =>
            match preprocessRows run.template.hasPreprocess out.rows env.preprocess with
            | .error _ => []
            | .ok rows => rows
  | _, _ => []

/-- While the chain runs, Temporal reports it running, or does not know it yet;
`FinalizeJob` is left to its end. -/
def JobWrite.duringRun : JobWrite → Bool
  | .finalize _ _ => false
  | .reconcile _ execution _ =>
      decide (execution = none ∨ execution = some .running ∨ execution = some .continuedAsNew)
  | _ => true

/-- `executed` says whether the recording that ends a round, if one does, was
executed all the same. -/
inductive StoredAction
  | start (runID : String) (licensed : Option String)
      (loaded : Except String LoadTemplateOutput)
  | round (env : RoundEnv) (executed : Bool)
  | write (statement : JobWrite)

section Step

variable (sha256Hex : String → String) (describe : ActivityError → String)

/-- The store behind a batch, row by row as `processRows` goes through it. -/
def storeRows (template : LoadTemplateOutput) (jobID : Int) (runID : String) (executed : Bool) :
    List Row → List RowEnv → MigrationWorkflowResult → RowStore → RowStore
  | row :: rest, env :: envs, result, store =>
      match processOneRow sha256Hex describe template.maxAttempts jobID row template.steps {}
          env.steps env.persist result with
      | none => store
      | some processed =>
          match processed.error with
          | some _ => store.afterRow runID row template.steps processed executed
          | none =>
              storeRows template jobID runID executed rest envs processed.result
                (store.afterRow runID row template.steps processed executed)
  | _, _, _, store => store

def StoredChain.step (checkpointed : Bool) (s : StoredChain) : StoredAction → Option StoredChain
  | .start runID licensed loaded =>
      (s.chain.step sha256Hex describe checkpointed (.start licensed loaded)).map
        (fun chain => { s with chain := chain, runID := runID })
  | .round env executed =>
      match s.chain.phase with
      | .looping run =>
          (s.chain.step sha256Hex describe checkpointed (.round env)).map (fun chain =>
            { s with
              chain := chain
              store := storeRows sha256Hex describe run.template s.chain.input.jobID s.runID
                executed (roundRows checkpointed run env) env.rows run.result s.store })
      | _ => none
  | .write statement =>
      if statement.duringRun = true then some { s with job := s.job.write statement } else none

end Step

/-- `rows` are those before `next`, and `result` counts them by their status. -/
structure CountsStored (next : Int) (result : MigrationWorkflowResult) (rows : List StoredRow) :
    Prop where
  below : ∀ row ∈ rows, row.index < next
  processed : result.processed = rowsWith .succeeded rows
  failed : result.failed = rowsWith .failed rows
  unresolved : result.unresolved = rowsWith .unresolved rows

private theorem countsStored_nil : CountsStored 0 {} [] := by
  refine ⟨?_, rfl, rfl, rfl⟩
  intro row member
  cases member

theorem rowsWith_concat (status : StepStatus) (rows : List StoredRow) (row : StoredRow) :
    rowsWith status (rows ++ [row]) =
      rowsWith status rows + if row.status = status then 1 else 0 := by
  unfold rowsWith
  rw [List.countP_append, List.countP_singleton]
  simp only [decide_eq_true_eq]

variable {result : MigrationWorkflowResult}

theorem CountsStored.persist {next : Int}
    {rows : List StoredRow} (counts : CountsStored next result rows)
    {outcome : PersistOutcomeInput} (index : outcome.rowIndex = next) :
    CountsStored (next + 1) (result.count outcome.status) (persistOutcome rows outcome) := by
  have absent : outcome.inserted.index ∉ rows.map StoredRow.index := by
    intro member
    obtain ⟨row, among, same⟩ := List.mem_map.mp member
    have earlier := counts.below row among
    change row.index = outcome.rowIndex at same
    omega
  have appended : persistOutcome rows outcome = rows ++ [outcome.inserted] :=
    upsert_of_not_mem rows absent
  have processed := counts.processed
  have failed := counts.failed
  have unresolved := counts.unresolved
  rw [appended]
  constructor
  · intro row member
    rcases List.mem_append.mp member with old | new
    · have earlier := counts.below row old
      omega
    · rw [List.mem_singleton.mp new]
      change outcome.rowIndex < next + 1
      omega
  · rw [rowsWith_concat]
    change _ = ((_ + if outcome.status = .succeeded then 1 else 0 : Nat) : Int)
    cases outcome.status <;> simp [MigrationWorkflowResult.count, processed]
  · rw [rowsWith_concat]
    change _ = ((_ + if outcome.status = .failed then 1 else 0 : Nat) : Int)
    cases outcome.status <;> simp [MigrationWorkflowResult.count, failed]
  · rw [rowsWith_concat]
    change _ = ((_ + if outcome.status = .unresolved then 1 else 0 : Nat) : Int)
    cases outcome.status <;> simp [MigrationWorkflowResult.count, unresolved]

theorem rowsWith_total (rows : List StoredRow) :
    rowsWith .succeeded rows + rowsWith .failed rows + rowsWith .unresolved rows = rows.length := by
  induction rows with
  | nil => rfl
  | cons row rest ih =>
      unfold rowsWith at ih ⊢
      rw [List.countP_cons, List.countP_cons, List.countP_cons, List.length_cons]
      cases status : row.status with
      | succeeded =>
          simp only [decide_eq_true_eq, reduceCtorEq, ↓reduceIte]
          omega
      | failed =>
          simp only [decide_eq_true_eq, reduceCtorEq, ↓reduceIte]
          omega
      | unresolved =>
          simp only [decide_eq_true_eq, reduceCtorEq, ↓reduceIte]
          omega

section Rows

variable {sha256Hex : String → String} {describe : ActivityError → String}

theorem processOneRow_stored {maxAttempts : Nat} {jobID : Int} {row : Row} {steps : List Step}
    {run : RowRun} {envs : List StepEnv} {persist : Option String} {processed : RowExecution}
    (ran : processOneRow sha256Hex describe maxAttempts jobID row steps run envs persist result =
      some processed) (went : processed.error = none) :
    ∃ status, processed.status = some status ∧ processed.result = result.count status := by
  obtain ⟨chain, _, ended⟩ := Option.map_eq_some_iff.mp ran
  subst ended
  cases error : chain.error with
  | some message =>
      simp only [error] at went
      cases went
  | none => exact ⟨chain.status, rfl, rfl⟩

theorem CountsStored.afterRow {next : Int} {store : RowStore}
    (counts : CountsStored next result store.rows) {row : Row} (index : row.index = next)
    {maxAttempts : Nat} {jobID : Int} {steps : List Step} {run : RowRun} {envs : List StepEnv}
    {persist : Option String} {processed : RowExecution}
    (ran : processOneRow sha256Hex describe maxAttempts jobID row steps run envs persist result =
      some processed) (went : processed.error = none) (runID : String) (executed : Bool) :
    CountsStored (next + 1) processed.result
      (store.afterRow runID row steps processed executed).rows := by
  obtain ⟨status, recorded, counted⟩ := processOneRow_stored ran went
  unfold RowStore.afterRow
  simp only [recorded, went]
  rw [if_pos (Or.inl (by trivial)), counted]
  have place : (rowOutcome runID row (decide (1 < steps.length)) processed.executed
      status).rowIndex = next := index
  exact counts.persist place

theorem storeRows_counts {template : LoadTemplateOutput} {jobID : Int} {runID : String}
    {executed : Bool} {batch : BatchEnd} (rows : List Row) :
    ∀ (next : Int) (envs : List RowEnv) (result : MigrationWorkflowResult) (store : RowStore),
      rows.map Row.index = indexesFrom next rows.length →
      processRows sha256Hex describe template jobID rows envs result = some batch →
      batch.error = none → CountsStored next result store.rows →
      CountsStored (next + rows.length) batch.result
        (storeRows sha256Hex describe template jobID runID executed rows envs result store).rows := by
  induction rows generalizing batch with
  | nil =>
      intro next envs result store _placed ran _clean counts
      cases ran
      rw [List.length_nil, Int.natCast_zero, Int.add_zero]
      cases envs <;> exact counts
  | cons row rest ih =>
      intro next envs result store placed ran clean counts
      rw [List.map_cons, List.length_cons, indexesFrom] at placed
      obtain ⟨index, later⟩ := List.cons.inj placed
      cases envs with
      | nil => cases ran
      | cons env envs =>
          unfold processRows at ran
          unfold storeRows
          cases processing : processOneRow sha256Hex describe template.maxAttempts jobID row
              template.steps {} env.steps env.persist result with
          | none =>
              rw [processing] at ran
              cases ran
          | some processed =>
              rw [processing] at ran
              simp only at ran ⊢
              cases error : processed.error with
              | some message =>
                  rw [error] at ran
                  cases ran
                  cases clean
              | none =>
                  rw [error] at ran
                  obtain ⟨tail, ranRest, ended⟩ := Option.map_eq_some_iff.mp ran
                  subst ended
                  have stored := counts.afterRow index processing error runID executed
                  have behind := ih (next + 1) envs processed.result _ later ranRest clean stored
                  rw [List.length_cons, Int.natCast_succ, Int.add_comm (rest.length : Int) 1,
                    ← Int.add_assoc]
                  exact behind

/-! ### The errors of a run -/

/-- The text of an application error names its type. -/
def errorText : MigrationError → String
  | .plain message => message
  | .invalidCheckpoint message => message ++ " (type: InvalidCheckpoint, retryable: false)"

theorem invalidCheckpoint_named (message : String) :
    errorText (.invalidCheckpoint message) ≠ "" := by
  intro empty
  exact absurd (String.append_eq_empty_iff.mp empty).2 (by decide)

private theorem persistStepError_named (step : Step) (rowIndex : Int) (message : String) :
    persistStepError step rowIndex message ≠ "" := by
  unfold persistStepError
  iterate 4 apply append_ne_empty
  exact append_ne_empty (by decide) _

private theorem rowError_named (rowIndex : Int) (message : String) :
    "persist row " ++ toString rowIndex ++ " outcome: " ++ message ≠ "" := by
  iterate 2 apply append_ne_empty
  exact append_ne_empty (by decide) _

theorem processOneRow_error_named {maxAttempts : Nat} {jobID : Int} {row : Row}
    {steps : List Step} {run : RowRun} {envs : List StepEnv} {persist : Option String}
    {processed : RowExecution}
    (ran : processOneRow sha256Hex describe maxAttempts jobID row steps run envs persist result =
      some processed) : processed.error ≠ some "" := by
  obtain ⟨chain, chained, ended⟩ := Option.map_eq_some_iff.mp ran
  have unstarted : ({ ctx := { row := row.data } } : Chain).error ≠ some "" := nofun
  have named : chain.error ≠ some "" := by
    refine runChain_invariant (fun _ => True) (fun chain => chain.error ≠ some "") ?_ ?_ steps 0
      envs _ (fun _ _ => trivial) unstarted chained
    · intro chain step body holds
      exact holds
    · intro stepIndex chain step env execution _allowed holds _executed
      unfold Chain.after
      split
      · intro empty
        exact persistStepError_named step row.index _ (Option.some.inj empty)
      · split
        · exact holds
        · exact holds
        · exact holds
  subst ended
  cases error : chain.error with
  | some message =>
      rw [error] at named
      exact named
  | none =>
      cases persist with
      | none => exact nofun
      | some message =>
          intro empty
          exact rowError_named row.index message (Option.some.inj empty)

theorem processRows_error_named {template : LoadTemplateOutput} {jobID : Int} {batch : BatchEnd}
    (rows : List Row) :
    ∀ (envs : List RowEnv) (result : MigrationWorkflowResult),
      processRows sha256Hex describe template jobID rows envs result = some batch →
      batch.error ≠ some "" := by
  induction rows generalizing batch with
  | nil =>
      intro envs result ran
      cases ran
      exact nofun
  | cons row rest ih =>
      intro envs result ran
      cases envs with
      | nil => cases ran
      | cons env later =>
          unfold processRows at ran
          split at ran
          · cases ran
          · rename_i processed processing
            split at ran
            · rename_i message stopped
              cases ran
              rw [← stopped]
              exact processOneRow_error_named processing
            · obtain ⟨tail, ranRest, ended⟩ := Option.map_eq_some_iff.mp ran
              have named : tail.error ≠ some "" := ih later processed.result ranRest
              rw [← ended]
              exact named

end Rows

def SleepsNamed : StoredAction → Prop
  | .round env _ => env.pauseSleep ≠ some "" ∧ env.pendingSleep ≠ some ""
  | _ => True

instance (action : StoredAction) : Decidable (SleepsNamed action) :=
  match action with
  | .round env _ =>
      inferInstanceAs (Decidable (env.pauseSleep ≠ some "" ∧ env.pendingSleep ≠ some ""))
  | .start _ _ _ => isTrue trivial
  | .write _ => isTrue trivial

inductive StoredRound (sha256Hex : String → String) (describe : ActivityError → String)
    (jobID : Int) (run : MigrationRun) (env : RoundEnv) : RoundEnd → Prop
  | stopped (err : MigrationError) (named : errorText err ≠ "") :
      StoredRound sha256Hex describe jobID run env (.failed err)
  | polled (out : IngestOutput) (noRows : roundRows true run env = []) :
      StoredRound sha256Hex describe jobID run env (.goesOn (run.polled out))
  | polledContinued (out : IngestOutput) (noRows : roundRows true run env = []) :
      StoredRound sha256Hex describe jobID run env (.continued (run.polled out).cp true)
  | processed (out : IngestOutput) (batch : BatchEnd)
      (placed : (roundRows true run env).map Row.index =
        indexesFrom run.cp.nextRowIndex (roundRows true run env).length)
      (items : out.newOffset.items = run.cp.nextRowIndex + (roundRows true run env).length)
      (ran : processRows sha256Hex describe run.template jobID (roundRows true run env) env.rows
        run.result = some batch) (clean : batch.error = none) :
      StoredRound sha256Hex describe jobID run env
        (afterBatch true env out (run.advanced out batch.result))

section Round

variable {sha256Hex : String → String} {describe : ActivityError → String}

theorem round_stored {jobID : Int} {run : MigrationRun} {env : RoundEnv} {executed : Bool}
    {handed : List Int} {ended : RoundEnd} (sleeps : SleepsNamed (.round env executed))
    (taken : Workflow.round sha256Hex describe true jobID run env = some (handed, ended)) :
    StoredRound sha256Hex describe jobID run env ended := by
  unfold Workflow.round at taken
  split at taken
  · rename_i message slept
    cases taken
    refine .stopped _ ?_
    intro empty
    exact sleeps.1 (slept.trans (congrArg some empty))
  · rename_i awake
    split at taken
    · cases taken
      exact .stopped _ (append_ne_empty (by decide) _)
    · rename_i out ingested
      split at taken
      · rename_i pending
        have noRows : roundRows true run env = [] := by
          unfold roundRows
          simp only [awake, ingested]
          rw [if_pos pending]
        split at taken
        · rename_i message slept
          cases taken
          refine .stopped _ ?_
          intro empty
          exact sleeps.2 (slept.trans (congrArg some empty))
        · split at taken
          · cases taken
            exact .polledContinued out noRows
          · cases taken
            exact .polled out noRows
      · rename_i ready
        split at taken
        · cases taken
          exact .stopped _ (invalidCheckpoint_named _)
        · rename_i passed
          obtain ⟨placed, items, _⟩ := continuous_of_check passed
          split at taken
          · cases taken
            exact .stopped _ (append_ne_empty (by decide) _)
          · rename_i rows preprocessed
            have handedOn : roundRows true run env = rows := by
              unfold roundRows
              simp only [awake, ingested]
              rw [if_neg ready]
              simp only [↓reduceIte] at passed ⊢
              rw [passed, preprocessed]
            obtain ⟨batch, processing, ending⟩ := Option.map_eq_some_iff.mp taken
            have indexes := preprocessRows_index preprocessed
            have length : rows.length = out.rows.length := by
              have same := congrArg List.length indexes
              rwa [List.length_map, List.length_map] at same
            split at ending
            · rename_i message stopped
              cases ending
              refine .stopped _ ?_
              intro empty
              exact processRows_error_named rows env.rows run.result processing
                (stopped.trans (congrArg some empty))
            · rename_i clean
              cases ending
              refine .processed out batch ?_ ?_ ?_ clean
              · rw [handedOn, length]
                exact indexes.trans placed
              · rw [handedOn, length]
                exact items
              · rw [handedOn]
                exact processing

theorem startRun_named (input : MigrationWorkflowInput) (licensed : Option String)
    (loaded : Except String LoadTemplateOutput) (err : MigrationError)
    (failed : startRun input licensed loaded = .failed err) : errorText err ≠ "" := by
  unfold startRun at failed
  split at failed
  · cases failed
    exact append_ne_empty (by decide) _
  · split at failed
    · cases failed
      exact append_ne_empty (by decide) _
    · split at failed
      · rename_i refusal refused
        cases failed
        -- a checkpoint is refused with an application error only
        unfold startingCheckpoint at refused
        split at refused
        · split at refused
          · cases refused
            exact invalidCheckpoint_named _
          · cases refused
        · split at refused
          · cases refused
          · cases refused
            exact invalidCheckpoint_named _
          · cases refused
            exact invalidCheckpoint_named _
          · cases refused
      · cases failed

end Round

def StoredChain.Counted (s : StoredChain) : Prop :=
  match s.chain.phase with
  | .starting =>
      CountsStored s.chain.input.position.nextRowIndex s.chain.input.position.totals s.store.rows
  | .looping run => CountsStored run.cp.nextRowIndex run.cp.totals s.store.rows
  | .completed run => CountsStored run.cp.nextRowIndex run.cp.totals s.store.rows
  | .failed err => errorText err ≠ ""

structure StoredChain.Sound (s : StoredChain) : Prop where
  ingest : IngestSound s.chain
  counted : s.Counted
  unfinished : s.job.status ≠ .succeeded

def StoredChain.fresh (jobID templateVersion : Int) : StoredChain :=
  { chain := { input := { jobID := jobID, ruleTemplateVersion := templateVersion } } }

theorem StoredChain.fresh_sound (jobID templateVersion : Int) :
    (StoredChain.fresh jobID templateVersion).Sound := by
  constructor
  · exact IngestSound.fresh rfl rfl
  · exact countsStored_nil
  · exact nofun

theorem ite_unfinished {condition : Prop} [Decidable condition] {changed job : JobRow}
    (written : changed.status ≠ .succeeded) (unfinished : job.status ≠ .succeeded) :
    (if condition then changed else job).status ≠ .succeeded := by
  split
  · exact written
  · exact unfinished

theorem recordStarted_unfinished {job : JobRow} (unfinished : job.status ≠ .succeeded) :
    (recordStarted job).status ≠ .succeeded := by
  change (if job.status = .pending then JobStatus.running else job.status) ≠ .succeeded
  split
  · exact nofun
  · exact unfinished

theorem write_unfinished {job : JobRow} {statement : JobWrite}
    (during : statement.duringRun = true) (unfinished : job.status ≠ .succeeded) :
    (job.write statement).status ≠ .succeeded := by
  cases statement with
  | startFailed message => exact ite_unfinished nofun unfinished
  | startRecorded => exact recordStarted_unfinished unfinished
  | markJobRunning => exact recordStarted_unfinished unfinished
  | pause => exact ite_unfinished nofun unfinished
  | resume => exact ite_unfinished nofun unfinished
  | cancel counts => exact ite_unfinished nofun unfinished
  | finalize t o => cases during
  | reconcile seen execution t =>
      change (Lifecycle.reconcile seen execution t job).status ≠ .succeeded
      unfold Lifecycle.reconcile
      rcases of_decide_eq_true during with unknown | running | continued
      · rw [unknown]
        change (Lifecycle.finalize t _ true job).status ≠ .succeeded
        by_cases active : job.status.isActive = true
        · intro succeeded
          have noError := ((finalize_succeeded_iff t _ (Or.inr active)).mp succeeded).error
          exact absurd noError (by decide)
        · unfold Lifecycle.finalize
          rw [if_neg]
          · exact unfinished
          · rintro (impossible | executed)
            · cases impossible
            · exact active executed
      · rw [running]
        exact ite_unfinished unfinished (recordStarted_unfinished unfinished)
      · rw [continued]
        exact ite_unfinished unfinished (recordStarted_unfinished unfinished)
  | syncTotals t => exact ite_unfinished unfinished unfinished

section Invariant

variable {sha256Hex : String → String} {describe : ActivityError → String}

theorem StoredChain.Sound.startRun {s : StoredChain} (sound : s.Sound)
    (starting : s.chain.phase = .starting) (runID : String) (licensed : Option String)
    (loaded : Except String LoadTemplateOutput) :
    StoredChain.Sound
      { s with
        chain := { s.chain with phase := Workflow.startRun s.chain.input licensed loaded }
        runID := runID } := by
  refine ⟨sound.ingest.started starting licensed loaded, ?_, sound.unfinished⟩
  have counted := sound.counted
  unfold StoredChain.Counted at counted ⊢
  rw [starting] at counted
  rcases startRun_cases sound.ingest.noLegacy licensed loaded with ⟨err, failed⟩ | ⟨template, runs⟩
  · rw [failed]
    exact startRun_named s.chain.input licensed loaded err failed
  · rw [runs]
    exact counted

theorem StoredChain.Counted.after {s : StoredChain} {run : MigrationRun} (sound : s.Sound)
    (looping : s.chain.phase = .looping run) {env : RoundEnv} (executed : Bool)
    (handed : List Int) {ended : RoundEnd}
    (stored : StoredRound sha256Hex describe s.chain.input.jobID run env ended) :
    StoredChain.Counted
      { s with
        chain := s.chain.after run handed ended
        store := storeRows sha256Hex describe run.template s.chain.input.jobID s.runID executed
          (roundRows true run env) env.rows run.result s.store } := by
  have counted : CountsStored run.cp.nextRowIndex run.cp.totals s.store.rows := by
    have counted := sound.counted
    unfold StoredChain.Counted at counted
    rw [looping] at counted
    exact counted
  have result := (sound.ingest.run_stands (Or.inl looping)).result
  have unchanged : ∀ rows, rows = [] → storeRows sha256Hex describe run.template
      s.chain.input.jobID s.runID executed rows env.rows run.result s.store = s.store := by
    intro rows empty
    rw [empty]
    cases env.rows <;> rfl
  cases stored with
  | stopped err named => exact named
  | polled out noRows =>
      rw [unchanged _ noRows]
      exact counted
  | polledContinued out noRows =>
      rw [unchanged _ noRows]
      exact counted
  | processed out batch placed items ran clean =>
      rw [← result] at counted
      have behind : CountsStored (run.advanced out batch.result).cp.nextRowIndex
          (run.advanced out batch.result).cp.totals
          (storeRows sha256Hex describe run.template s.chain.input.jobID s.runID executed
            (roundRows true run env) env.rows run.result s.store).rows := by
        change CountsStored out.newOffset.items batch.result _
        rw [items]
        exact storeRows_counts _ _ env.rows run.result s.store placed ran clean counted
      unfold afterBatch
      rw [if_pos (rfl : true = true)]
      split_ifs with done handsOver
      · exact behind
      · exact behind
      · exact behind

theorem stored_step {s next : StoredChain} {action : StoredAction} (named : SleepsNamed action)
    (sound : s.Sound) (taken : s.step sha256Hex describe true action = some next) : next.Sound := by
  cases action with
  | start runID licensed loaded =>
      obtain ⟨chain, stepped, rfl⟩ := Option.map_eq_some_iff.mp taken
      rcases chain_step stepped with ⟨_, _, same, starting, rfl⟩ | ⟨_, _, _, _, impossible, _⟩
      · cases same
        exact sound.startRun starting runID licensed loaded
      · cases impossible
  | round env executed =>
      unfold StoredChain.step at taken
      simp only at taken
      split at taken
      · rename_i run looping
        obtain ⟨chain, stepped, rfl⟩ := Option.map_eq_some_iff.mp taken
        have ingest := ingestSound_step sound.ingest stepped
        unfold ChainState.step at stepped
        simp only [looping] at stepped
        obtain ⟨⟨handed, ended⟩, went, rfl⟩ := Option.map_eq_some_iff.mp stepped
        exact ⟨ingest, StoredChain.Counted.after sound looping executed handed
          (round_stored named went), sound.unfinished⟩
      · cases taken
  | write statement =>
      unfold StoredChain.step at taken
      simp only at taken
      split at taken
      · rename_i during
        cases taken
        exact ⟨sound.ingest, sound.counted, write_unfinished during sound.unfinished⟩
      · cases taken

theorem stored_run {jobID templateVersion : Int} {actions : List StoredAction} {s : StoredChain}
    (named : ∀ action ∈ actions, SleepsNamed action)
    (ran : run (StoredChain.step sha256Hex describe true)
      (StoredChain.fresh jobID templateVersion) actions = some s) : s.Sound := by
  have obeys : Obeys (StoredChain.step sha256Hex describe true)
      (fun _ action => SleepsNamed action) (StoredChain.fresh jobID templateVersion) actions :=
    obeys_of_forall (fun action member _ => named action member) _
  exact invariant_of_obeys (fun _ _ _ allowed sound taken => stored_step allowed sound taken)
    actions _ s (StoredChain.fresh_sound jobID templateVersion) obeys ran

end Invariant

end MigrationPlatform.Lifecycle
