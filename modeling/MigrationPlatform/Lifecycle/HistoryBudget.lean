/-
The history events of a `MigrationWorkflow` run and of a
`RetryFailedRowsWorkflow` run.

An activity that is executed and waited for adds six events, a sleep five. The
budget is checked between batches only, so the pause before a batch and the
batch itself come on top of it. Temporal ends a run at 51,200 events.
-/

import MigrationPlatform.Lifecycle.RetryWorkflows

namespace MigrationPlatform.Lifecycle

open MigrationPlatform.Connectors MigrationPlatform.Workflow

inductive Activity
  | requireLicensed
  | loadTemplate
  | ingest
  | preprocessBatch
  | renderPayloadBatch
  | callEndpoint
  | persistStepOutcome
  | persistOutcome
  | publishProgress
  | finalizeJob
  | recordExportStarted
  | exportJobResults
  | recordExportFailure
  | listFailedRows
  | loadRowState
deriving DecidableEq, Repr

inductive HistoryItem
  | activity (name : Activity)
  | sleep
deriving DecidableEq, Repr

/-- The events of the activity or the timer, and three of the workflow task. -/
def HistoryItem.events : HistoryItem → Nat
  | .activity _ => 3 + 3
  | .sleep => 2 + 3

def historyEvents : List HistoryItem → Nat
  | [] => 0
  | item :: rest => item.events + historyEvents rest

def historyLimit : Nat := 51200

/-- `evaluated` says that the payload was left with `$py` expressions. -/
def stepHistory (multiStep evaluated : Bool) (execution : StepExecution) : List HistoryItem :=
  (if evaluated = true then [.activity .renderPayloadBatch] else []) ++
    (if execution.called.isSome = true then [.activity .callEndpoint] else []) ++
    (if multiStep = true then [.activity .persistStepOutcome] else [])

/-- A row that cannot record a step ends without `PersistOutcome`. -/
def rowHistory (multiStep : Bool) (evaluated : String → Bool) (processed : RowExecution) :
    List HistoryItem :=
  processed.executed.reverse.flatMap
      (fun execution => stepHistory multiStep (evaluated execution.stepName) execution) ++
    (if processed.status.isSome = true then [.activity .persistOutcome] else [])

/-- A round, the sleeps of the pause before it, and the steps, by row index and
name, whose payloads were evaluated. -/
structure MeasuredRound where
  env : RoundEnv
  pauses : Nat := 0
  evaluated : Int → String → Bool := fun _ _ => false

section Migration

variable (sha256Hex : String → String) (describe : ActivityError → String)

def processRowsHistory (template : LoadTemplateOutput) (jobID : Int)
    (evaluated : Int → String → Bool) :
    List Row → List RowEnv → MigrationWorkflowResult → List HistoryItem
  | [], _, _ => []
  | _ :: _, [], _ => []
  | row :: rest, env :: envs, result =>
      match processOneRow sha256Hex describe template.maxAttempts jobID row template.steps {}
          env.steps env.persist result with
      | none => []
      | some processed =>
          rowHistory (decide (1 < template.steps.length)) (evaluated row.index) processed ++
            if processed.error.isSome = true then []
            else processRowsHistory template jobID evaluated rest envs processed.result

def roundHistory (jobID : Int) (run : MigrationRun) (measured : MeasuredRound) :
    List HistoryItem :=
  match measured.env.pauseSleep with
  | some _ => []
  | none =>
      .activity .ingest ::
        match measured.env.ingest with
        | .error _ => []
        | .ok out =>
            if out.pending = true then [.sleep]
            else
              match checkRowContinuity run.cp.nextRowIndex out.rows out.newOffset out.done with
              | some _ => []
              | none =>
                  (if run.template.hasPreprocess = false ∨ out.rows.length = 0 then []
                    else [.activity .preprocessBatch]) ++
                  match preprocessRows run.template.hasPreprocess out.rows
                      measured.env.preprocess with
                  | .error _ => []
                  | .ok rows =>
                      processRowsHistory sha256Hex describe run.template jobID measured.evaluated
                          rows measured.env.rows run.result ++
                        match processRows sha256Hex describe run.template jobID rows
                            measured.env.rows run.result with
                        | none => []
                        | some batch =>
                            if batch.error.isSome = true then []
                            else [.activity .publishProgress]

def roundWork (jobID : Int) (run : MigrationRun) (measured : MeasuredRound) : Nat :=
  historyEvents (roundHistory sha256Hex describe jobID run measured)

def roundEvents (jobID : Int) (run : MigrationRun) (measured : MeasuredRound) : Nat :=
  measured.pauses * HistoryItem.sleep.events + roundWork sha256Hex describe jobID run measured

/-- Where a run is: in its loop, behind it with `finishJob` to come, or closed. -/
inductive RunPhase
  | starting
  | looping (run : MigrationRun)
  | finishing (failed : Bool)
  | closed

structure MeasuredRun where
  input : MigrationWorkflowInput
  events : Nat := 0
  phase : RunPhase := .starting

/-- How `finishJob` goes; `legacy` is the path of runs that began before it
recorded failures. -/
structure FinishEnv where
  legacy : Bool := false
  finalized : Bool := true
  started : Bool := true
  exported : Bool := true

def finishHistory (failed : Bool) (env : FinishEnv) : List HistoryItem :=
  if env.legacy = true then
    if failed = true then [] else [.activity .finalizeJob, .activity .exportJobResults]
  else
    .activity .finalizeJob ::
      if env.finalized = false then []
      else
        .activity .recordExportStarted ::
          if env.started = false then []
          else
            .activity .exportJobResults ::
              if env.exported = true then [] else [.activity .recordExportFailure]

inductive RunAction
  | start (licensed : Option String) (loaded : Except String LoadTemplateOutput)
  | round (measured : MeasuredRound)
  | finish (env : FinishEnv)

def startHistory (licensed : Option String) : List HistoryItem :=
  .activity .requireLicensed :: if licensed.isSome = true then [] else [.activity .loadTemplate]

def startPhase : ChainPhase → RunPhase
  | .looping run => .looping run
  | _ => .finishing true

def roundPhase : RoundEnd → RunPhase
  | .goesOn run => .looping run
  | .continued _ _ => .closed
  | .completed _ => .finishing false
  | .failed _ => .finishing true

def MeasuredRound.seen (measured : MeasuredRound) (events work : Nat) : RoundEnv :=
  { measured.env with
    history := { measured.env.history with events := events, lastEvents := work } }

/-- A run of `MigrationWorkflow` in checkpointed mode. -/
def MeasuredRun.step (s : MeasuredRun) : RunAction → Option MeasuredRun
  | .start licensed loaded =>
      match s.phase with
      | .starting =>
          some { s with
            events := s.events + historyEvents (startHistory licensed)
            phase := startPhase (startRun s.input licensed loaded) }
      | _ => none
  | .round measured =>
      match s.phase with
      | .looping run =>
          let events := s.events + roundEvents sha256Hex describe s.input.jobID run measured
          let work := roundWork sha256Hex describe s.input.jobID run measured
          (Workflow.round sha256Hex describe true s.input.jobID run (measured.seen events work)).map
            (fun ended => { s with events := events, phase := roundPhase ended.2 })
      | _ => none
  | .finish env =>
      match s.phase with
      | .finishing failed =>
          some { s with
            events := s.events + historyEvents (finishHistory failed env)
            phase := .closed }
      | _ => none

def RoundsWithin (most : Nat) (s : MeasuredRun) : RunAction → Prop
  | .round measured =>
      ∀ run, s.phase = .looping run →
        roundEvents sha256Hex describe s.input.jobID run measured ≤ most
  | _ => True

end Migration

structure PageHistory where
  rows : List (List HistoryItem) := []
  published : Bool := false

def PageHistory.items (page : PageHistory) : List HistoryItem :=
  .activity .listFailedRows :: page.rows.flatMap id ++
    if page.published = true then [.activity .publishProgress] else []

section FailedRows

variable (sha256Hex : String → String) (describe : ActivityError → String)
variable (jobID : Int) (runID : String) (template : LoadTemplateOutput) (fromStart : Bool)
variable (evaluated : Int → String → Bool)

def retryRowHistory (store : RowStore) (rowIndex : Int) (env : RetryRowEnv)
    (result : MigrationWorkflowResult) : List HistoryItem :=
  .activity .loadRowState ::
    match env.load with
    | some _ => []
    | none =>
        match (loadRowState store rowIndex).row with
        | none => [.activity .persistOutcome]
        | some data =>
            match processOneRow sha256Hex describe template.maxAttempts jobID
                { index := rowIndex, data := data } template.steps
                (retryRun (loadRowState store rowIndex) fromStart false) env.row.steps
                env.row.persist result with
            | none => []
            | some processed =>
                rowHistory (decide (1 < template.steps.length)) (evaluated rowIndex) processed

def retryRowsHistory :
    List Int → List RetryRowEnv → RowStore → MigrationWorkflowResult → List (List HistoryItem)
  | [], _, _, _ => []
  | _ :: _, [], _, _ => []
  | rowIndex :: rest, env :: envs, store, result =>
      retryRowHistory sha256Hex describe jobID template fromStart evaluated store rowIndex env
          result ::
        match retryPersistedRow sha256Hex describe jobID runID template store rowIndex fromStart
            false env result with
        | none => []
        | some retried =>
            if retried.error.isSome = true then []
            else retryRowsHistory rest envs retried.store retried.result

def retryPagesHistory : List PageEnv → FailedRowsRun → List PageHistory
  | [], _ => []
  | env :: envs, run =>
      match env.list with
      | some _ => [{}]
      | none =>
          let page := listFailedRows run.world.store.rows run.cursor pageLimit
          if page = [] then [{}]
          else
            match retryRows sha256Hex describe jobID runID template fromStart page env.rows
                run.world.store run.result with
            | none => []
            | some retried =>
                let rows := retryRowsHistory sha256Hex describe jobID runID template fromStart
                  evaluated page env.rows run.world.store run.result
                if retried.error.isSome = true then [{ rows := rows }]
                else
                  let processed := run.processedThisRun + page.length
                  { rows := rows, published := true } ::
                    if page.length < pageLimit ∨ processed ≥ rowsPerRun then []
                    else
                      retryPagesHistory envs
                        { world := RetriedJob.publish { run.world with store := retried.store }
                            env.published
                          cursor := page.getLast?.getD run.cursor
                          processedThisRun := processed
                          result := retried.result }

end FailedRows

structure FailedRowsMeasured where
  env : FailedRowsEnv
  world : RetriedJob
  after : Int := -1
  fromStart : Bool := false
  finish : FinishEnv := {}
  evaluated : Int → String → Bool := fun _ _ => false

section FailedRowsRuns

variable (sha256Hex : String → String) (describe : ActivityError → String)
variable (jobID : Int) (runID : String)

def FailedRowsMeasured.pages (measured : FailedRowsMeasured) : List PageHistory :=
  match measured.env.start.template with
  | none => []
  | some template =>
      retryPagesHistory sha256Hex describe jobID runID template measured.fromStart
        measured.evaluated measured.env.pages
        { world := measured.world, cursor := measured.after }

/-- The history of the run; only one that finished its pages ends in `finishJob`. -/
def FailedRowsMeasured.history (measured : FailedRowsMeasured) : List HistoryItem :=
  startHistory measured.env.start.licensed ++
    ((measured.pages sha256Hex describe jobID runID).flatMap PageHistory.items ++
      match measured.env.start.template with
      | none => []
      | some template =>
          match retryPages sha256Hex describe jobID runID template measured.fromStart
              measured.env.pages { world := measured.world, cursor := measured.after } with
          | some (.finished _) => finishHistory false measured.finish
          | _ => [])

def FailedRowsMeasured.RowsWithin (most : Nat) (measured : FailedRowsMeasured) : Prop :=
  ∀ page ∈ measured.pages sha256Hex describe jobID runID, ∀ row ∈ page.rows, row.length ≤ most

end FailedRowsRuns

/-! ### The budget of a run -/

section Budget

variable {sha256Hex : String → String} {describe : ActivityError → String} {jobID : Int}

theorem historyEvents_append (left right : List HistoryItem) :
    historyEvents (left ++ right) = historyEvents left + historyEvents right := by
  induction left with
  | nil => exact (Nat.zero_add _).symm
  | cons item left ih =>
      change item.events + historyEvents (left ++ right) = _
      rw [ih, ← Nat.add_assoc]
      rfl

theorem goesOn_work {run next : MigrationRun} {measured : MeasuredRound} {events work : Nat}
    {handed : List Int}
    (ran : Workflow.round sha256Hex describe true jobID run (measured.seen events work) =
      some (handed, .goesOn next)) :
    11 ≤ roundWork sha256Hex describe jobID run measured ∧ events + work ≤ 10000 := by
  have fits : ∀ kept : shouldContinueAsNew (measured.seen events work).history ≠ true,
      events + work ≤ 10000 := by
    intro kept
    unfold shouldContinueAsNew MeasuredRound.seen historyEventBudget at kept
    simp only at kept
    split at kept
    · exact absurd rfl kept
    · have within := of_decide_eq_false (Bool.eq_false_iff.mpr kept)
      omega
  unfold roundWork roundHistory
  simp only [Workflow.round, MeasuredRound.seen] at ran
  cases paused : measured.env.pauseSleep with
  | some message =>
      rw [paused] at ran
      cases ran
  | none =>
      simp only [paused] at ran
      cases ingested : measured.env.ingest with
      | error message =>
          rw [ingested] at ran
          cases ran
      | ok out =>
          simp only [ingested] at ran
          by_cases pending : out.pending = true
          · simp only [if_pos pending] at ran ⊢
            refine ⟨by decide, ?_⟩
            cases slept : measured.env.pendingSleep with
            | some message =>
                rw [slept] at ran
                cases ran
            | none =>
                simp only [slept, true_and] at ran
                split at ran
                · cases ran
                · rename_i kept
                  exact fits kept
          · simp only [if_neg pending, if_true] at ran ⊢
            cases continuity : checkRowContinuity run.cp.nextRowIndex out.rows out.newOffset
                out.done with
            | some message =>
                rw [continuity] at ran
                cases ran
            | none =>
                simp only [continuity] at ran ⊢
                cases preprocessed : preprocessRows run.template.hasPreprocess out.rows
                    measured.env.preprocess with
                | error message =>
                    rw [preprocessed] at ran
                    cases ran
                | ok rows =>
                    simp only [preprocessed] at ran ⊢
                    obtain ⟨batch, processed, ended⟩ := Option.map_eq_some_iff.mp ran
                    cases stopped : batch.error with
                    | some message =>
                        rw [stopped] at ended
                        cases ended
                    | none =>
                        simp only [stopped, afterBatch, if_true] at ended
                        split at ended
                        · cases ended
                        · split at ended
                          · cases ended
                          · rename_i kept
                            refine ⟨?_, fits kept⟩
                            have published : (if batch.error.isSome = true then []
                                else [HistoryItem.activity .publishProgress]) =
                                [.activity .publishProgress] := by rw [stopped]; rfl
                            simp only [processed, published]
                            change 11 ≤ 6 + historyEvents _
                            rw [historyEvents_append, historyEvents_append]
                            change 11 ≤ 6 + (_ + (_ + 6))
                            omega

private theorem historyEvents_le (items : List HistoryItem) :
    historyEvents items ≤ items.length * 6 := by
  induction items with
  | nil => exact Nat.le_refl 0
  | cons item items ih =>
      have single : item.events ≤ 6 := by
        cases item with
        | activity name => exact Nat.le_refl 6
        | sleep => exact Nat.le_succ 5
      change item.events + historyEvents items ≤ (items.length + 1) * 6
      omega

theorem historyEvents_flatMap_le {Part : Type} {items : Part → List HistoryItem} {most : Nat}
    (parts : List Part) (each : ∀ part ∈ parts, historyEvents (items part) ≤ most) :
    historyEvents (parts.flatMap items) ≤ parts.length * most := by
  induction parts with
  | nil => exact Nat.zero_le _
  | cons part parts ih =>
      have first := each part List.mem_cons_self
      have rest := ih (fun other member => each other (List.mem_cons_of_mem part member))
      rw [List.flatMap_cons, historyEvents_append, List.length_cons, Nat.succ_mul]
      omega

theorem finishHistory_events (failed : Bool) (env : FinishEnv) :
    historyEvents (finishHistory failed env) ≤ 24 := by
  unfold finishHistory
  cases env.legacy <;> cases failed <;> cases env.finalized <;> cases env.started <;>
    cases env.exported <;> decide

theorem startHistory_events (licensed : Option String) :
    historyEvents (startHistory licensed) ≤ 12 := by
  unfold startHistory
  cases licensed with
  | none => decide
  | some message =>
      change 6 ≤ 12
      decide

/-- What a run has used of its history, by where it is. A run that is still in
its loop has room for another round like the last, of eleven events at least. -/
def WithinBudget (most : Nat) (s : MeasuredRun) : Prop :=
  match s.phase with
  | .starting => s.events = 0
  | .looping _ => s.events ≤ 9989
  | .finishing _ => s.events ≤ 9989 + most
  | .closed => s.events ≤ 9989 + most + 24

theorem MeasuredRun.step_cases {s next : MeasuredRun} {action : RunAction}
    (taken : s.step sha256Hex describe action = some next) :
    (∃ licensed loaded, action = .start licensed loaded ∧ s.phase = .starting ∧
      next = { s with
        events := s.events + historyEvents (startHistory licensed)
        phase := startPhase (startRun s.input licensed loaded) }) ∨
    (∃ measured run handed ended, action = .round measured ∧ s.phase = .looping run ∧
      Workflow.round sha256Hex describe true s.input.jobID run
        (measured.seen (s.events + roundEvents sha256Hex describe s.input.jobID run measured)
          (roundWork sha256Hex describe s.input.jobID run measured)) = some (handed, ended) ∧
      next = { s with
        events := s.events + roundEvents sha256Hex describe s.input.jobID run measured
        phase := roundPhase ended }) ∨
    (∃ env failed, action = .finish env ∧ s.phase = .finishing failed ∧
      next = { s with
        events := s.events + historyEvents (finishHistory failed env)
        phase := .closed }) := by
  cases action with
  | start licensed loaded =>
      simp only [MeasuredRun.step] at taken
      split at taken
      · rename_i phase
        cases taken
        exact .inl ⟨licensed, loaded, rfl, phase, rfl⟩
      · cases taken
  | round measured =>
      simp only [MeasuredRun.step] at taken
      split at taken
      · rename_i run phase
        obtain ⟨⟨handed, ended⟩, ran, same⟩ := Option.map_eq_some_iff.mp taken
        exact .inr (.inl ⟨measured, run, handed, ended, rfl, phase, ran, same.symm⟩)
      · cases taken
  | finish env =>
      simp only [MeasuredRun.step] at taken
      split at taken
      · rename_i failed phase
        cases taken
        exact .inr (.inr ⟨env, failed, rfl, phase, rfl⟩)
      · cases taken

theorem WithinBudget.step {most : Nat} {s next : MeasuredRun} {action : RunAction}
    (within : RoundsWithin sha256Hex describe most s action) (holds : WithinBudget most s)
    (taken : s.step sha256Hex describe action = some next) : WithinBudget most next := by
  unfold WithinBudget at holds
  rcases MeasuredRun.step_cases taken with
    ⟨licensed, loaded, rfl, phase, rfl⟩ | ⟨measured, run, handed, ended, rfl, phase, ran, rfl⟩ |
    ⟨env, failed, rfl, phase, rfl⟩
  · rw [phase] at holds
    simp only at holds
    have started := startHistory_events licensed
    unfold WithinBudget
    cases startRun s.input licensed loaded with
    | starting =>
        change s.events + _ ≤ 9989 + most
        omega
    | looping run =>
        change s.events + _ ≤ 9989
        omega
    | completed run =>
        change s.events + _ ≤ 9989 + most
        omega
    | failed err =>
        change s.events + _ ≤ 9989 + most
        omega
  · rw [phase] at holds
    simp only at holds
    have cost := within run phase
    unfold WithinBudget
    cases ended with
    | goesOn later =>
        obtain ⟨worked, fits⟩ := goesOn_work ran
        change s.events + _ ≤ 9989
        omega
    | continued cp polled =>
        change s.events + _ ≤ 9989 + most + 24
        omega
    | completed last =>
        change s.events + _ ≤ 9989 + most
        omega
    | failed err =>
        change s.events + _ ≤ 9989 + most
        omega
  · rw [phase] at holds
    simp only at holds
    have finished := finishHistory_events failed env
    change s.events + _ ≤ 9989 + most + 24
    omega

theorem migration_events {most : Nat} {input : MigrationWorkflowInput} {actions : List RunAction}
    {s : MeasuredRun}
    (within : GuardedRuns.Obeys (MeasuredRun.step sha256Hex describe)
      (RoundsWithin sha256Hex describe most) { input := input } actions)
    (ran : GuardedRuns.run (MeasuredRun.step sha256Hex describe) { input := input } actions =
      some s) : s.events ≤ 9989 + most + 24 := by
  have holds := GuardedRuns.invariant_of_obeys
    (fun state action next allowed before taken => WithinBudget.step allowed before taken)
    actions { input := input } s rfl within ran
  unfold WithinBudget at holds
  cases phase : s.phase with
  | starting =>
      rw [phase] at holds
      simp only at holds
      omega
  | looping run =>
      rw [phase] at holds
      simp only at holds
      omega
  | finishing failed =>
      rw [phase] at holds
      simp only at holds
      omega
  | closed =>
      rw [phase] at holds
      exact holds

end Budget

/-! ### The pages of a retry -/

section Pages

variable {sha256Hex : String → String} {describe : ActivityError → String}
variable {jobID : Int} {runID : String} {template : LoadTemplateOutput} {fromStart : Bool}
variable {evaluated : Int → String → Bool}

private theorem retryRowsHistory_length (page : List Int) :
    ∀ (envs : List RetryRowEnv) (store : RowStore) (result : MigrationWorkflowResult),
      (retryRowsHistory sha256Hex describe jobID runID template fromStart evaluated page envs store
        result).length ≤ page.length := by
  induction page with
  | nil =>
      intro envs store result
      exact Nat.le_refl 0
  | cons rowIndex rest ih =>
      intro envs store result
      cases envs with
      | nil => exact Nat.zero_le _
      | cons env later =>
          unfold retryRowsHistory
          rw [List.length_cons, List.length_cons]
          apply Nat.succ_le_succ
          split
          · exact Nat.zero_le _
          · split
            · exact Nat.zero_le _
            · exact ih later _ _

private theorem listFailedRows_length (rows : List StoredRow) (after : Int) :
    (listFailedRows rows after pageLimit).length ≤ 200 :=
  List.length_take_le _ _

theorem retryPagesHistory_bounds (envs : List PageEnv) :
    ∀ (run : FailedRowsRun) (full : Nat), run.processedThisRun = 200 * full → full < 10 →
      (retryPagesHistory sha256Hex describe jobID runID template fromStart evaluated envs
        run).length ≤ 10 - full ∧
      ∀ page ∈ retryPagesHistory sha256Hex describe jobID runID template fromStart evaluated envs
        run, page.rows.length ≤ 200 := by
  induction envs with
  | nil =>
      intro run full counted below
      exact ⟨Nat.zero_le _, fun page member => by cases member⟩
  | cons env rest ih =>
      intro run full counted below
      have single : ∀ page : PageHistory, page.rows.length ≤ 200 →
          [page].length ≤ 10 - full ∧ ∀ other ∈ [page], other.rows.length ≤ 200 := by
        intro page short
        refine ⟨by simp only [List.length_singleton]; omega, ?_⟩
        intro other member
        rw [List.mem_singleton.mp member]
        exact short
      unfold retryPagesHistory
      split
      · exact single {} (Nat.zero_le _)
      · simp only
        split
        · exact single {} (Nat.zero_le _)
        · split
          · exact ⟨Nat.zero_le _, fun page member => by cases member⟩
          · rename_i retried _
            have listed := listFailedRows_length run.world.store.rows run.cursor
            have rows := Nat.le_trans (@retryRowsHistory_length sha256Hex describe jobID runID
              template fromStart evaluated
              (listFailedRows run.world.store.rows run.cursor pageLimit) env.rows
              run.world.store run.result) listed
            split
            · exact single _ rows
            · split
              · exact single _ rows
              · rename_i goes
                have whole : (listFailedRows run.world.store.rows run.cursor
                    pageLimit).length = 200 := by
                  have least : pageLimit ≤ _ := Nat.le_of_not_lt (fun short => goes (.inl short))
                  exact Nat.le_antisymm listed least
                have more : 200 * (full + 1) < 2000 := by
                  have fewer := Nat.lt_of_not_le (fun many => goes (.inr many))
                  rw [whole, counted] at fewer
                  unfold rowsPerRun at fewer
                  omega
                have next : run.processedThisRun + (listFailedRows run.world.store.rows run.cursor
                    pageLimit).length = 200 * (full + 1) := by
                  rw [whole, counted]
                  rfl
                constructor
                · rw [List.length_cons]
                  refine Nat.le_trans (Nat.succ_le_succ (ih _ (full + 1) ?_ (by omega)).1) (by omega)
                  exact next
                · intro page member
                  rcases List.mem_cons.mp member with rfl | later
                  · exact rows
                  · exact (ih _ (full + 1) next (by omega)).2 page later

private theorem PageHistory.events_le {most : Nat} {page : PageHistory}
    (short : page.rows.length ≤ 200)
    (within : ∀ row ∈ page.rows, row.length ≤ most) :
    historyEvents page.items ≤ 12 + 200 * (most * 6) := by
  have rows : historyEvents (page.rows.flatMap id) ≤ page.rows.length * (most * 6) := by
    apply historyEvents_flatMap_le
    intro row member
    exact Nat.le_trans (historyEvents_le row) (Nat.mul_le_mul_right 6 (within row member))
  have total := Nat.le_trans rows (Nat.mul_le_mul_right (most * 6) short)
  have published : historyEvents (if page.published = true then
      [HistoryItem.activity .publishProgress] else []) ≤ 6 := by
    split
    · exact Nat.le_refl 6
    · exact Nat.zero_le 6
  unfold PageHistory.items
  rw [List.cons_append]
  change 6 + historyEvents _ ≤ _
  rw [historyEvents_append]
  omega

private theorem failedRows_events {most : Nat} {measured : FailedRowsMeasured}
    (within : measured.RowsWithin sha256Hex describe jobID runID most) :
    historyEvents (measured.history sha256Hex describe jobID runID) ≤
      12 + (10 * (12 + 200 * (most * 6)) + 24) := by
  have started := startHistory_events measured.env.start.licensed
  have bounds : (measured.pages sha256Hex describe jobID runID).length ≤ 10 ∧
      ∀ page ∈ measured.pages sha256Hex describe jobID runID, page.rows.length ≤ 200 := by
    unfold FailedRowsMeasured.pages
    split
    · exact ⟨Nat.zero_le _, fun page member => by cases member⟩
    · exact retryPagesHistory_bounds _ _ 0 rfl (by decide)
  have pages := historyEvents_flatMap_le (measured.pages sha256Hex describe jobID runID)
    (fun page member => PageHistory.events_le (bounds.2 page member) (within page member))
  have paged := Nat.le_trans pages (Nat.mul_le_mul_right (12 + 200 * (most * 6)) bounds.1)
  unfold FailedRowsMeasured.history
  rw [historyEvents_append, historyEvents_append]
  apply Nat.add_le_add started
  apply Nat.add_le_add paged
  split
  · exact Nat.zero_le _
  · split
    · exact finishHistory_events false measured.finish
    · exact Nat.zero_le _

end Pages

def pendingRound : MeasuredRound where
  env :=
    { ingest := .ok { pending := true }
      history := { events := 0, bytes := 0, suggested := false, lastEvents := 0, lastBytes := 0 }
      preprocess := .ok []
      rows := [] }

def unrenderable (name : String) (payload : Except String String) : Step where
  name := name
  method := "POST"
  hasBody := true
  mode := .idempotent
  continuesOnFailure := true
  render := fun _ => { payload := payload, destination := .error "missing field" }

/-- One row whose payload cannot be rendered, after a pause of so many sleeps. -/
def lastRound (pauses : Nat) : MeasuredRound where
  env :=
    { ingest := .ok { rows := [{ index := 0, data := [] }], newOffset := { items := 1 }, done := true }
      history := { events := 0, bytes := 0, suggested := false, lastEvents := 0, lastBytes := 0 }
      preprocess := .ok []
      rows := [{ steps := [{ attempts := [] }] }] }
  pauses := pauses

def singleStep : LoadTemplateOutput where
  version := 1
  steps := [unrenderable "main" (.error "missing field")]

def pollingRun : MigrationRun where
  template := singleStep
  cp := { version := 1 }
  result := {}

section Sharp

variable {sha256Hex : String → String} {describe : ActivityError → String}

theorem step_pending {events : Nat} (room : events + 22 ≤ 10000) :
    MeasuredRun.step sha256Hex describe
        { input := { jobID := 1 }, events := events, phase := .looping pollingRun }
        (.round pendingRound) =
      some { input := { jobID := 1 }, events := events + 11, phase := .looping pollingRun } := by
  have kept : shouldContinueAsNew (pendingRound.seen (events + 11) 11).history = false := by
    apply decide_eq_false
    change ¬(((events + 11 : Nat) : Int) + (11 : Nat) > 10000 ∨ (0 : Int) + 0 > 8388608)
    omega
  have goes : Workflow.round sha256Hex describe true 1 pollingRun
      (pendingRound.seen (events + 11) 11) = some ([], .goesOn pollingRun) := by
    change (if true = true ∧ shouldContinueAsNew (pendingRound.seen (events + 11) 11).history = true
      then some ([], RoundEnd.continued pollingRun.cp true)
      else some ([], RoundEnd.goesOn pollingRun)) = _
    rw [kept]
    rfl
  change (Workflow.round sha256Hex describe true 1 pollingRun
    (pendingRound.seen (events + 11) 11)).map _ = _
  rw [goes]
  rfl

private theorem run_polling (rest : List RunAction) (polls : Nat) :
    ∀ events, events + polls * 11 + 11 ≤ 10000 →
      GuardedRuns.run (MeasuredRun.step sha256Hex describe)
        { input := { jobID := 1 }, events := events, phase := .looping pollingRun }
        (List.replicate polls (.round pendingRound) ++ rest) =
      GuardedRuns.run (MeasuredRun.step sha256Hex describe)
        { input := { jobID := 1 }, events := events + polls * 11, phase := .looping pollingRun }
        rest := by
  induction polls with
  | zero =>
      intro events room
      rw [Nat.zero_mul]
      rfl
  | succ polls ih =>
      intro events room
      rw [List.replicate_succ, List.cons_append]
      have polled := @step_pending sha256Hex describe events (by omega)
      simp only [GuardedRuns.run, polled]
      rw [ih (events + 11) (by omega)]
      have same : events + 11 + polls * 11 = events + (polls + 1) * 11 := by omega
      rw [same]

theorem obeys_polling (most : Nat) (least : 11 ≤ most) (rest : List RunAction) (polls : Nat) :
    ∀ events, events + polls * 11 + 11 ≤ 10000 →
      GuardedRuns.Obeys (MeasuredRun.step sha256Hex describe)
        (RoundsWithin sha256Hex describe most)
        { input := { jobID := 1 }, events := events + polls * 11, phase := .looping pollingRun }
        rest →
      GuardedRuns.Obeys (MeasuredRun.step sha256Hex describe)
        (RoundsWithin sha256Hex describe most)
        { input := { jobID := 1 }, events := events, phase := .looping pollingRun }
        (List.replicate polls (.round pendingRound) ++ rest) := by
  induction polls with
  | zero =>
      intro events room obeys
      rw [Nat.zero_mul] at obeys
      exact obeys
  | succ polls ih =>
      intro events room obeys
      rw [List.replicate_succ, List.cons_append]
      constructor
      · intro run looping
        exact least
      · rw [@step_pending sha256Hex describe events (by omega)]
        apply ih (events + 11) (by omega)
        have same : events + 11 + polls * 11 = events + (polls + 1) * 11 := by omega
        rw [same]
        exact obeys

/-- A run that polls to the end of its budget, is paused, and then ends with one
row and an export that fails. -/
def longestRun : List RunAction :=
  .start none (.ok singleStep) ::
    (List.replicate 907 (.round pendingRound) ++
      [.round (lastRound 8234), .finish { exported := false }])

private theorem run_start (rest : List RunAction) :
    GuardedRuns.run (MeasuredRun.step sha256Hex describe) { input := { jobID := 1 } }
        (.start none (.ok singleStep) :: rest) =
      GuardedRuns.run (MeasuredRun.step sha256Hex describe)
        { input := { jobID := 1 }, events := 12, phase := .looping pollingRun } rest :=
  rfl

private theorem obeys_start {most : Nat} (rest : List RunAction)
    (obeys : GuardedRuns.Obeys (MeasuredRun.step sha256Hex describe)
      (RoundsWithin sha256Hex describe most)
      { input := { jobID := 1 }, events := 12, phase := .looping pollingRun } rest) :
    GuardedRuns.Obeys (MeasuredRun.step sha256Hex describe)
      (RoundsWithin sha256Hex describe most) { input := { jobID := 1 } }
      (.start none (.ok singleStep) :: rest) :=
  ⟨trivial, obeys⟩

private theorem run_last (pauses events : Nat) :
    GuardedRuns.run (MeasuredRun.step sha256Hex describe)
        { input := { jobID := 1 }, events := events, phase := .looping pollingRun }
        [.round (lastRound pauses), .finish { exported := false }] =
      some { input := { jobID := 1 }, events := events + (pauses * 5 + 18) + 24, phase := .closed } :=
  rfl

private theorem longestRun_events :
    GuardedRuns.run (MeasuredRun.step sha256Hex describe) { input := { jobID := 1 } } longestRun =
      some { input := { jobID := 1 }, events := 51201, phase := .closed } := by
  unfold longestRun
  rw [run_start, run_polling _ 907 12 (by decide), run_last]

private theorem longestRun_obeys {most : Nat} (least : 41188 ≤ most) :
    GuardedRuns.Obeys (MeasuredRun.step sha256Hex describe)
      (RoundsWithin sha256Hex describe most) { input := { jobID := 1 } } longestRun := by
  unfold longestRun
  apply obeys_start
  apply obeys_polling most (by omega) _ 907 12 (by decide)
  refine ⟨?_, trivial, trivial⟩
  intro run looping
  cases looping
  exact least

end Sharp

/-! ### The limit -/

/-- The history of a run stays within the limit as long as no round of a
migration, its pause included, adds more than 41,187 events, and no row of a
retry takes more than four activities. The first bound is exact. -/
theorem history_within_limit (sha256Hex : String → String) (describe : ActivityError → String) :
    (∀ most : Nat,
      (∀ (input : MigrationWorkflowInput) (actions : List RunAction) (s : MeasuredRun),
        GuardedRuns.Obeys (MeasuredRun.step sha256Hex describe)
          (RoundsWithin sha256Hex describe most) { input := input } actions →
        GuardedRuns.run (MeasuredRun.step sha256Hex describe) { input := input } actions = some s →
        s.events ≤ historyLimit) ↔ most ≤ 41187) ∧
    ∀ (jobID : Int) (runID : String) (measured : FailedRowsMeasured),
      measured.RowsWithin sha256Hex describe jobID runID 4 →
      historyEvents (measured.history sha256Hex describe jobID runID) ≤ historyLimit := by
  constructor
  · intro most
    constructor
    · intro within
      apply Nat.le_of_not_lt
      intro more
      have exceeds := within { jobID := 1 } longestRun _ (longestRun_obeys more) longestRun_events
      exact absurd exceeds (by decide)
    · intro small input actions s obeys ran
      have events := migration_events obeys ran
      unfold historyLimit
      omega
  · intro jobID runID measured within
    have events := failedRows_events within
    unfold historyLimit
    omega

def oneFailedRow : FailedRowsMeasured where
  env :=
    { start := { loaded := .ok singleStep }
      pages := [{ rows := [{ row := { steps := [{ attempts := [] }] } }] }] }
  world :=
    { job := { status := .failed }
      store := { rows := [{ index := 0, status := .failed, rowJSON := some [("id", .null)] }] } }

theorem history_within_limit_one_row :
    (∃ s, GuardedRuns.run (MeasuredRun.step id (fun _ => "")) { input := { jobID := 1 } }
        [.start none (.ok singleStep), .round pendingRound, .round (lastRound 3)] = some s ∧
      s.events ≤ historyLimit) ∧
    historyEvents (oneFailedRow.history id (fun _ => "") 1 "run") ≤ historyLimit := by
  obtain ⟨migrations, retries⟩ := history_within_limit id (fun _ => "")
  constructor
  · have ran : GuardedRuns.run (MeasuredRun.step id (fun _ => "")) { input := { jobID := 1 } }
        [.start none (.ok singleStep), .round pendingRound, .round (lastRound 3)] =
        some { input := { jobID := 1 }, events := 56, phase := .finishing false } := rfl
    refine ⟨_, ran, (migrations 41187).mpr (Nat.le_refl _) { jobID := 1 } _ _ ?_ ran⟩
    refine ⟨trivial, ?_, ?_, trivial⟩
    · intro run looping
      cases looping
      decide
    · intro run looping
      cases looping
      decide
  · apply retries
    unfold FailedRowsMeasured.RowsWithin
    decide

/-- A batch of rows of a template whose ten steps evaluate their payloads. -/
def fullBatch (rows : Nat) : MeasuredRound where
  env :=
    { ingest := .ok
        { rows := (indexesFrom 0 rows).map (fun index => { index := index, data := [] })
          newOffset := { items := rows } }
      history := { events := 0, bytes := 0, suggested := false, lastEvents := 0, lastBytes := 0 }
      preprocess := .ok []
      rows := List.replicate rows { steps := List.replicate 10 { attempts := [] } } }
  evaluated := fun _ _ => true

def tenSteps : LoadTemplateOutput where
  version := 1
  steps := ["s0", "s1", "s2", "s3", "s4", "s5", "s6", "s7", "s8", "s9"].map
    (fun name => unrenderable name (.ok "\x7b\x7d"))

theorem runChain_unrenderable (rowIndex : Int) (payload : String) (names : List String) :
    ∀ (stepIndex : Int) (chain : Chain), chain.error = none →
      (∀ execution ∈ chain.executed, execution.called = none) →
      ∃ final, runChain id (fun _ => "") 5 1 rowIndex true {} stepIndex
          (names.map (fun name => unrenderable name (.ok payload)))
          (List.replicate names.length { attempts := [] }) chain = some final ∧
        final.error = none ∧ final.executed.length = chain.executed.length + names.length ∧
        ∀ execution ∈ final.executed, execution.called = none := by
  induction names with
  | nil =>
      intro stepIndex chain kept uncalled
      exact ⟨chain, rfl, kept, rfl, uncalled⟩
  | cons name names ih =>
      intro stepIndex chain kept uncalled
      have first : executeStep id (fun _ => "") 5 1 rowIndex stepIndex
          (unrenderable name (.ok payload)) chain.ctx {} { attempts := [] } =
          some (renderFailed (unrenderable name (.ok payload))
            { status := .failed, request := some payload, lastError := "missing field" }) := rfl
      obtain ⟨final, ran, unbroken, length, others⟩ := ih (stepIndex + 1)
        { chain with
          executed := renderFailed (unrenderable name (.ok payload))
            { status := .failed, request := some payload, lastError := "missing field" } ::
              chain.executed
          anyFailed := true } kept (by
            intro execution member
            rcases List.mem_cons.mp member with rfl | older
            · rfl
            · exact uncalled execution older)
      refine ⟨final, ?_, unbroken, ?_, others⟩
      · rw [List.map_cons, List.length_cons, List.replicate_succ]
        unfold runChain
        simp only [Option.bind_none, first]
        exact ran
      · rw [length, List.length_cons, List.length_cons]
        omega

private theorem historyEvents_uncalled (executed : List StepExecution)
    (uncalled : ∀ execution ∈ executed, execution.called = none) :
    historyEvents (executed.flatMap (fun execution => stepHistory true true execution)) =
      executed.length * 12 := by
  induction executed with
  | nil => rfl
  | cons execution executed ih =>
      have rest := ih (fun other member => uncalled other (List.mem_cons_of_mem _ member))
      have first : historyEvents (stepHistory true true execution) = 12 := by
        unfold stepHistory
        rw [uncalled execution List.mem_cons_self]
        rfl
      rw [List.flatMap_cons, historyEvents_append, rest, first, List.length_cons]
      omega

private theorem tenSteps_row (row : Row) (result : MigrationWorkflowResult) :
    ∃ processed, processOneRow id (fun _ => "") 5 1 row tenSteps.steps {}
        (List.replicate 10 { attempts := [] }) none result = some processed ∧
      processed.error = none ∧ historyEvents (rowHistory true (fun _ => true) processed) = 126 := by
  obtain ⟨final, ran, unbroken, length, uncalled⟩ := runChain_unrenderable row.index "\x7b\x7d"
    ["s0", "s1", "s2", "s3", "s4", "s5", "s6", "s7", "s8", "s9"] 0 { ctx := { row := row.data } }
    rfl (fun execution member => by cases member)
  have chained : runChain id (fun _ => "") 5 1 row.index (decide (1 < tenSteps.steps.length)) {} 0
      tenSteps.steps (List.replicate 10 { attempts := [] }) { ctx := { row := row.data } } =
      some final := ran
  unfold processOneRow
  rw [chained]
  simp only [Option.map_some, unbroken]
  refine ⟨_, rfl, rfl, ?_⟩
  unfold rowHistory
  rw [historyEvents_append, historyEvents_uncalled]
  · rw [List.length_reverse]
    change final.executed.length * 12 + 6 = 126
    rw [length]
    rfl
  · intro execution member
    exact uncalled execution (List.mem_reverse.mp member)

theorem tenSteps_rows (count : Nat) :
    ∀ (next : Int) (result : MigrationWorkflowResult),
      historyEvents (processRowsHistory id (fun _ => "") tenSteps 1 (fun _ _ => true)
        ((indexesFrom next count).map (fun index => { index := index, data := [] }))
        (List.replicate count { steps := List.replicate 10 { attempts := [] } }) result) =
          count * 126 ∧
      ∃ batch, processRows id (fun _ => "") tenSteps 1
        ((indexesFrom next count).map (fun index => { index := index, data := [] }))
        (List.replicate count { steps := List.replicate 10 { attempts := [] } }) result =
          some batch ∧ batch.error = none := by
  induction count with
  | zero =>
      intro next result
      exact ⟨rfl, _, rfl, rfl⟩
  | succ count ih =>
      intro next result
      obtain ⟨processed, ran, kept, events⟩ := tenSteps_row { index := next, data := [] } result
      obtain ⟨rest, batch, later, unbroken⟩ := ih (next + 1) processed.result
      rw [List.replicate_succ]
      change historyEvents (processRowsHistory id (fun _ => "") tenSteps 1 (fun _ _ => true)
        (_ :: (indexesFrom (next + 1) count).map _) _ result) = _ ∧ ∃ batch, processRows id
        (fun _ => "") tenSteps 1 (_ :: (indexesFrom (next + 1) count).map _) _ result = _ ∧ _
      unfold processRowsHistory processRows
      have same : tenSteps.maxAttempts = 5 := rfl
      simp only [same, ran, kept]
      constructor
      · rw [historyEvents_append]
        change historyEvents (rowHistory true (fun _ => true) processed) +
          historyEvents (processRowsHistory _ _ _ _ _ _ _ _) = _
        rw [events, rest]
        omega
      · rw [later]
        exact ⟨_, rfl, unbroken⟩

private theorem misplacedRow_indexesFrom (count : Nat) :
    ∀ next, misplacedRow next
      ((indexesFrom next count).map (fun index => { index := index, data := [] })) = none := by
  induction count with
  | zero =>
      intro next
      rfl
  | succ count ih =>
      intro next
      change (if next ≠ next then _ else _) = _
      rw [if_neg (fun different => different rfl)]
      exact ih (next + 1)

section FullBatch

variable {count : Nat}

theorem fullBatch_continuous (some : count ≠ 0) :
    checkRowContinuity 0 ((indexesFrom 0 count).map (fun index => { index := index, data := [] }))
      { items := count } false = none := by
  have length : ((indexesFrom 0 count).map
      (fun index => ({ index := index, data := [] } : Row))).length = count := by
    rw [List.length_map, indexesFrom_length]
  unfold checkRowContinuity
  rw [misplacedRow_indexesFrom, length, if_neg (fun empty => some empty.1)]
  exact if_neg (fun apart => apart (Int.zero_add _).symm)

theorem tenSteps_unprepared (rows : List Row) :
    preprocessRows tenSteps.hasPreprocess rows (.ok []) = .ok rows :=
  if_pos (.inl rfl)

def batchRun : MigrationRun where
  template := tenSteps
  cp := { version := 1 }
  result := {}

private theorem fullBatch_work (some : count ≠ 0) :
    roundWork id (fun _ => "") 1 batchRun (fullBatch count) = 6 + (count * 126 + 6) := by
  obtain ⟨rows, batch, processed, unbroken⟩ := tenSteps_rows count 0 {}
  have plain : tenSteps.hasPreprocess = false := rfl
  unfold roundWork roundHistory fullBatch batchRun
  simp only [Bool.false_eq_true, if_false, fullBatch_continuous some, tenSteps_unprepared,
    processed, unbroken]
  simp only [plain, true_or, if_true, List.nil_append]
  change 6 + historyEvents (_ ++ [HistoryItem.activity .publishProgress]) = _
  rw [historyEvents_append, rows]
  rfl

private theorem fullBatch_rounds (some : count ≠ 0) (events work : Nat) :
    ∃ handed ended, Workflow.round id (fun _ => "") true 1 batchRun
      ((fullBatch count).seen events work) = .some (handed, ended) := by
  obtain ⟨_, batch, processed, unbroken⟩ := tenSteps_rows count 0 {}
  unfold Workflow.round MeasuredRound.seen fullBatch batchRun
  simp only [Bool.false_eq_true, if_false, if_true, fullBatch_continuous some,
    tenSteps_unprepared, processed, unbroken, Option.map_some]
  exact ⟨_, _, rfl⟩

private theorem fullBatch_events (some : count ≠ 0) :
    ∃ s, GuardedRuns.run (MeasuredRun.step id (fun _ => "")) { input := { jobID := 1 } }
        [.start none (.ok tenSteps), .round (fullBatch count)] = .some s ∧
      s.events = 24 + count * 126 := by
  obtain ⟨handed, ended, ran⟩ := fullBatch_rounds some
    (12 + roundEvents id (fun _ => "") 1 batchRun (fullBatch count))
    (roundWork id (fun _ => "") 1 batchRun (fullBatch count))
  refine ⟨{ input := { jobID := 1 }
            events := 12 + roundEvents id (fun _ => "") 1 batchRun (fullBatch count)
            phase := roundPhase ended }, ?_, ?_⟩
  · have started : MeasuredRun.step id (fun _ => "") { input := { jobID := 1 } }
        (.start none (.ok tenSteps)) =
        .some { input := { jobID := 1 }, events := 12, phase := .looping batchRun } := rfl
    have stepped : MeasuredRun.step id (fun _ => "")
        { input := { jobID := 1 }, events := 12, phase := .looping batchRun }
        (.round (fullBatch count)) = _ := congrArg (Option.map _) ran
    simp only [GuardedRuns.run, started]
    rw [stepped]
    rfl
  · have pauses : (fullBatch count).pauses = 0 := rfl
    simp only [roundEvents, fullBatch_work some, pauses, Nat.zero_mul]
    omega

end FullBatch

/-- One batch of five hundred such rows, right after the start of a run. -/
theorem batch_exceeds_limit :
    ∃ s, GuardedRuns.run (MeasuredRun.step id (fun _ => "")) { input := { jobID := 1 } }
        [.start none (.ok tenSteps), .round (fullBatch 500)] = some s ∧
      historyLimit < s.events := by
  obtain ⟨s, ran, events⟩ := @fullBatch_events 500 (by decide)
  refine ⟨s, ran, ?_⟩
  rw [events]
  decide

end MigrationPlatform.Lifecycle
