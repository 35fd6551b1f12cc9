/-
The rows that `RetryFailedRowsWorkflow` retries.

It pages through the failed rows of a job by a cursor that starts at -1 and is
handed on to the next run, and a retry changes the status of the row it is at.
A row stays failed until it is retried and is never listed again afterwards, so
every failed row is retried once, in the order of the indexes. A row below zero,
which the retry of a single row can create, lies below the start of the cursor.
-/

import MigrationPlatform.Foundation.CursorPaging
import MigrationPlatform.Lifecycle.RetryWorkflows

namespace MigrationPlatform.Lifecycle

open MigrationPlatform.Connectors MigrationPlatform.Workflow CursorPaging

section Calls

variable (sha256Hex : String → String) (describe : ActivityError → String)
variable (jobID : Int) (runID : String)

def calledRows (template : LoadTemplateOutput) (fromStart : Bool) :
    List Int → List RetryRowEnv → RowStore → MigrationWorkflowResult → List Int
  | [], _, _, _ => []
  | _ :: _, [], _, _ => []
  | rowIndex :: rest, env :: envs, store, result =>
      rowIndex ::
        match retryPersistedRow sha256Hex describe jobID runID template store rowIndex fromStart
            false env result with
        | none => []
        | some retried =>
            if retried.error.isSome = true then []
            else calledRows template fromStart rest envs retried.store retried.result

def calledPages (template : LoadTemplateOutput) (fromStart : Bool) :
    List PageEnv → FailedRowsRun → List Int
  | [], _ => []
  | env :: envs, run =>
      match env.list with
      | some _ => []
      | none =>
          let page := listFailedRows run.world.store.rows run.cursor pageLimit
          calledRows sha256Hex describe jobID runID template fromStart page env.rows
              run.world.store run.result ++
            match retryRows sha256Hex describe jobID runID template fromStart page env.rows
                run.world.store run.result with
            | none => []
            | some retried =>
                let processed := run.processedThisRun + page.length
                if retried.error.isSome = true ∨ page.length < pageLimit ∨
                    processed ≥ rowsPerRun then []
                else
                  calledPages template fromStart envs
                    { world := RetriedJob.publish { run.world with store := retried.store }
                        env.published
                      cursor := page.getLast?.getD run.cursor
                      processedThisRun := processed
                      result := retried.result }

def calledFailedRows (fromStart : Bool) : List FailedRowsEnv → RetriedJob → Int → List Int
  | [], _, _ => []
  | env :: envs, s, after =>
      match env.start.template with
      | none => []
      | some template =>
          calledPages sha256Hex describe jobID runID template fromStart env.pages
              { world := s, cursor := after } ++
            match retryPages sha256Hex describe jobID runID template fromStart env.pages
                { world := s, cursor := after } with
            | some (.continued world cursor) => calledFailedRows fromStart envs world cursor
            | _ => []

end Calls

/-- The activities of the row return without an error, and the steps and the
attempts that the row may need are all there. What the attempts meet is arbitrary. -/
structure RetryRowCompletes (template : LoadTemplateOutput) (env : RetryRowEnv) : Prop where
  load : env.load = none
  missing : env.missing.error = none
  persist : env.row.persist = none
  steps : template.steps.length ≤ env.row.steps.length
  attempts : ∀ step ∈ env.row.steps,
    step.persist = none ∧ template.maxAttempts ≤ step.attempts.length

structure PageCompletes (template : LoadTemplateOutput) (env : PageEnv) : Prop where
  list : env.list = none
  enough : pageLimit ≤ env.rows.length
  rows : ∀ row ∈ env.rows, RetryRowCompletes template row

/-- A run that is licensed and finds its template. Its activity options allow one
attempt at least, and ten full pages end it. -/
structure RunCompletes (template : LoadTemplateOutput) (env : FailedRowsEnv) : Prop where
  start : env.start.template = some template
  attempts : 0 < template.maxAttempts
  enough : rowsPerRun ≤ pageLimit * env.pages.length
  pages : ∀ page ∈ env.pages, PageCompletes template page

def failedRows (rows : List StoredRow) : List Int :=
  ((rows.filter (fun row => decide (row.status = .failed))).map StoredRow.index).insertionSort
    (fun left right => left ≤ right)

def failedIn (store : RowStore) : List Int := failedRows store.rows

theorem mem_failedRows {rows : List StoredRow} {index : Int} :
    index ∈ failedRows rows ↔ ∃ row ∈ rows, row.index = index ∧ row.status = .failed := by
  unfold failedRows
  rw [List.mem_insertionSort, List.mem_map]
  constructor
  · intro listed
    obtain ⟨row, kept, same⟩ := listed
    obtain ⟨member, failed⟩ := List.mem_filter.mp kept
    exact ⟨row, member, same, of_decide_eq_true failed⟩
  · intro stored
    obtain ⟨row, member, same, failed⟩ := stored
    exact ⟨row, List.mem_filter.mpr ⟨member, decide_eq_true failed⟩, same⟩

theorem failedRows_ascending {rows : List StoredRow} (distinct : (indexes rows).Nodup) :
    (failedRows rows).Pairwise (· < ·) := by
  have sorted : (failedRows rows).Pairwise (· ≤ ·) := List.pairwise_insertionSort _ _
  have once : (failedRows rows).Nodup := by
    unfold failedRows
    rw [(List.perm_insertionSort _ _).nodup_iff]
    exact distinct.sublist (List.Sublist.map _ List.filter_sublist)
  apply (List.pairwise_and_iff.mpr ⟨sorted, once⟩).imp
  intro left right both
  omega

theorem above_failedRows (rows : List StoredRow) (after : Int) :
    above after (failedRows rows) =
      ((rows.filter (fun row => decide (row.status = .failed ∧ after < row.index))).map
        StoredRow.index).insertionSort (fun left right => left ≤ right) := by
  have sorted : (failedRows rows).Pairwise (· ≤ ·) := List.pairwise_insertionSort _ _
  have sortedAbove : (above after (failedRows rows)).Pairwise (· ≤ ·) :=
    sorted.sublist List.filter_sublist
  have same : ((rows.filter (fun row => decide (row.status = .failed))).map
      StoredRow.index).filter (fun index => decide (after < index)) =
      (rows.filter (fun row => decide (row.status = .failed ∧ after < row.index))).map
        StoredRow.index := by
    rw [List.filter_map, List.filter_filter]
    congr 1
    apply List.filter_congr
    intro row _member
    rw [Function.comp_apply, Bool.decide_and, Bool.and_comm]
  have permuted : (above after (failedRows rows)).Perm
      ((rows.filter (fun row => decide (row.status = .failed ∧ after < row.index))).map
        StoredRow.index) := by
    rw [← same]
    exact (List.perm_insertionSort _ _).filter _
  exact (permuted.trans (List.perm_insertionSort _ _).symm).eq_of_pairwise'
    sortedAbove (List.pairwise_insertionSort _ _)

private theorem listFailedRows_eq (rows : List StoredRow) (after : Int) (limit : Nat) :
    listFailedRows rows after limit = page limit after (failedRows rows) := by
  unfold listFailedRows page
  rw [above_failedRows]

section Retries

variable {sha256Hex : String → String} {describe : ActivityError → String}
variable {jobID : Int} {runID : String} {template : LoadTemplateOutput} {fromStart : Bool}

private theorem persistOutcome_keeps (rows : List StoredRow) (outcome : PersistOutcomeInput) :
    above outcome.rowIndex (failedRows (persistOutcome rows outcome)) =
      above outcome.rowIndex (failedRows rows) := by
  have keeps : ∀ row, (outcome.updated row).index = row.index := fun _ => rfl
  rw [above_failedRows, above_failedRows]
  unfold persistOutcome
  rw [KeyedTable.filter_upsert_other keeps]
  intro row same
  apply decide_eq_false
  intro both
  have atOutcome : row.index = outcome.rowIndex := same
  omega

theorem retryPersistedRow_writes {store : RowStore} {rowIndex : Int} {confirmNotApplied : Bool}
    {env : RetryRowEnv} {result : MigrationWorkflowResult} {retried : RowRetry}
    (ran : retryPersistedRow sha256Hex describe jobID runID template store rowIndex fromStart
      confirmNotApplied env result = some retried) :
    retried.store.rows = store.rows ∨ ∃ outcome : PersistOutcomeInput,
      outcome.rowIndex = rowIndex ∧ retried.store.rows = persistOutcome store.rows outcome := by
  rcases retryPersistedRow_cases ran with ⟨message, _, same⟩ | ⟨_, _, _, _, stored⟩ |
    ⟨_, data, processed, _, _, _, _, stored⟩
  · left
    rw [same]
  · rw [stored]
    split
    · right
      exact ⟨missingRowOutcome rowIndex, rfl, rfl⟩
    · left
      rfl
  · rw [stored]
    unfold RowStore.afterRow
    cases processed.status with
    | none =>
        left
        rfl
    | some status =>
        simp only
        split
        · right
          exact ⟨_, rfl, rfl⟩
        · left
          rfl

private theorem retryPersistedRow_keeps {store : RowStore} {rowIndex : Int}
    {confirmNotApplied : Bool}
    {env : RetryRowEnv} {result : MigrationWorkflowResult} {retried : RowRetry}
    (ran : retryPersistedRow sha256Hex describe jobID runID template store rowIndex fromStart
      confirmNotApplied env result = some retried) :
    Keeps failedIn rowIndex store retried.store := by
  unfold Keeps failedIn
  rcases retryPersistedRow_writes ran with same | ⟨outcome, atRow, stored⟩
  · rw [same]
  · rw [stored, ← atRow]
    exact persistOutcome_keeps store.rows outcome

theorem retryRows_visits (page : List Int) :
    ∀ (envs : List RetryRowEnv) (store : RowStore) (result : MigrationWorkflowResult),
      calledRows sha256Hex describe jobID runID template fromStart page envs store result <+: page ∧
      ∀ retried, retryRows sha256Hex describe jobID runID template fromStart page envs store
          result = some retried → retried.error = none →
        calledRows sha256Hex describe jobID runID template fromStart page envs store result =
            page ∧
          Visits failedIn store page retried.store := by
  induction page with
  | nil =>
      intro envs store result
      constructor
      · exact List.prefix_refl []
      · intro retried ran _whole
        cases ran
        exact ⟨rfl, Visits.nil store⟩
  | cons rowIndex rest ih =>
      intro envs store result
      cases envs with
      | nil =>
          constructor
          · exact List.nil_prefix
          · intro retried ran
            cases ran
      | cons env later =>
          unfold calledRows retryRows
          cases first : retryPersistedRow sha256Hex describe jobID runID template store rowIndex
              fromStart false env result with
          | none =>
              constructor
              · exact List.cons_prefix_cons.mpr ⟨rfl, List.nil_prefix⟩
              · intro retried ran
                cases ran
          | some own =>
              obtain ⟨start, whole⟩ := ih later own.store own.result
              cases error : own.error with
              | some message =>
                  simp only [error, Option.isSome_some, if_true]
                  constructor
                  · exact List.cons_prefix_cons.mpr ⟨rfl, List.nil_prefix⟩
                  · intro retried ran ended
                    cases ran
                    rw [error] at ended
                    cases ended
              | none =>
                  simp only [error, Option.isSome_none, Bool.false_eq_true, if_false]
                  constructor
                  · exact List.cons_prefix_cons.mpr ⟨rfl, start⟩
                  · intro retried ran ended
                    obtain ⟨called, visits⟩ := whole retried ran ended
                    constructor
                    · exact congrArg (rowIndex :: ·) called
                    · exact Visits.cons (retryPersistedRow_keeps first) visits

/-! ### One run -/

def PagesCalled (left called : List Int) (processed : Nat) : Option PagesEnd → Prop
  | some (.finished _) => called = left
  | some (.continued world cursor) =>
      called ++ above cursor (failedIn world.store) = left ∧
        rowsPerRun ≤ processed + called.length ∧ (indexes world.store.rows).Nodup
  | _ => called <+: left

theorem PagesCalled.start {left called : List Int} {processed : Nat} {ended : Option PagesEnd}
    (pages : PagesCalled left called processed ended) : called <+: left := by
  unfold PagesCalled at pages
  split at pages
  · rewrite [pages]
    exact List.prefix_refl left
  · exact ⟨_, pages.1⟩
  · exact pages

theorem PagesCalled.behind {left rest page called : List Int} {processed : Nat}
    {ended : Option PagesEnd} (split : page ++ rest = left)
    (pages : PagesCalled rest called (processed + page.length) ended) :
    PagesCalled left (page ++ called) processed ended := by
  have grows : called <+: rest → page ++ called <+: left := by
    intro within
    obtain ⟨unseen, rows⟩ := within
    exact ⟨unseen, by rw [List.append_assoc, rows, split]⟩
  cases ended with
  | none => exact grows pages
  | some ended =>
      cases ended with
      | finished world => exact (congrArg (page ++ ·) pages).trans split
      | continued world cursor =>
          obtain ⟨rows, many, distinct⟩ := pages
          refine ⟨?_, ?_, distinct⟩
          · rw [List.append_assoc, rows, split]
          · rw [List.length_append]
            omega
      | failed world => exact grows pages

theorem retryPages_called (envs : List PageEnv) :
    ∀ run : FailedRowsRun, (indexes run.world.store.rows).Nodup →
      PagesCalled (above run.cursor (failedIn run.world.store))
        (calledPages sha256Hex describe jobID runID template fromStart envs run)
        run.processedThisRun
        (retryPages sha256Hex describe jobID runID template fromStart envs run) := by
  induction envs with
  | nil =>
      intro run _distinct
      exact List.nil_prefix
  | cons env rest ih =>
      intro run distinct
      have ascending : (failedIn run.world.store).Pairwise (· < ·) := failedRows_ascending distinct
      unfold calledPages retryPages
      cases env.list with
      | some message => exact List.nil_prefix
      | none =>
          simp only
          generalize listed : listFailedRows run.world.store.rows run.cursor pageLimit = rows
          have isPage : page pageLimit run.cursor (failedIn run.world.store) = rows := by
            rw [← listed]
            exact (listFailedRows_eq _ _ _).symm
          have within : rows <+: above run.cursor (failedIn run.world.store) := by
            rw [← isPage]
            exact List.take_prefix _ _
          have whenShort : rows.length < pageLimit →
              rows = above run.cursor (failedIn run.world.store) := by
            intro short
            rw [← isPage] at short ⊢
            exact page_of_short short
          by_cases empty : rows = []
          · rw [if_pos empty]
            rw [empty] at whenShort
            have nothing := whenShort (by decide)
            rw [empty, ← nothing]
            rfl
          · rw [if_neg empty]
            obtain ⟨start, whole⟩ := @retryRows_visits sha256Hex describe jobID runID template
              fromStart rows env.rows run.world.store run.result
            cases retriedRows : retryRows sha256Hex describe jobID runID template fromStart rows
                env.rows run.world.store run.result with
            | none =>
                simp only [List.append_nil]
                exact start.trans within
            | some retried =>
                have stored := retryRows_indexes _ env.rows run.world.store run.result
                  (fun index member => mem_of_listFailedRows (by rw [listed]; exact member))
                  retriedRows
                cases error : retried.error with
                | some message =>
                    simp only [error, Option.isSome_some, true_or, if_true, List.append_nil]
                    exact start.trans within
                | none =>
                    obtain ⟨called, visits⟩ := whole retried retriedRows error
                    simp only [called, error, Option.isSome_none, Bool.false_eq_true, false_or]
                    by_cases short : rows.length < pageLimit
                    · rw [if_pos (.inl short), if_pos short, List.append_nil]
                      exact whenShort short
                    · obtain ⟨last, ends⟩ : ∃ last, rows.getLast? = some last :=
                        ⟨_, List.getLast?_eq_some_getLast empty⟩
                      rw [← isPage] at visits ends
                      have split := page_append_rest ascending ends visits
                      rw [isPage] at split ends
                      rw [ends]
                      by_cases many : run.processedThisRun + rows.length ≥ rowsPerRun
                      · rw [if_pos (.inr many), if_neg short, if_pos many, List.append_nil]
                        refine ⟨?_, many, ?_⟩
                        · rw [publish_store]
                          exact split
                        · rw [publish_store, stored]
                          exact distinct
                      · rw [if_neg (not_or.mpr ⟨short, many⟩), if_neg short, if_neg many]
                        apply PagesCalled.behind split
                        have later := ih
                          { world := RetriedJob.publish { run.world with store := retried.store }
                              env.published
                            cursor := last
                            processedThisRun := run.processedThisRun + rows.length
                            result := retried.result }
                          (by rw [publish_store, stored]; exact distinct)
                        rw [publish_store] at later
                        exact later

private theorem executeActivity_completes (call : AttemptEnv → AttemptRun)
    (envs : List AttemptEnv) :
    ∀ maxAttempts : Nat, 0 < maxAttempts → maxAttempts ≤ envs.length →
      (executeActivity call maxAttempts envs).isSome = true := by
  induction envs with
  | nil =>
      intro maxAttempts positive enough
      rw [List.length_nil] at enough
      omega
  | cons env rest ih =>
      intro maxAttempts positive enough
      rw [List.length_cons] at enough
      cases maxAttempts with
      | zero => omega
      | succ remaining =>
          unfold executeActivity
          split
          · rename_i again
            rw [Option.isSome_map]
            exact ih remaining (by omega) (by omega)
          · rfl

private theorem executeStep_completes {maxAttempts : Nat} {rowIndex stepIndex : Int} {step : Step}
    {ctx : RenderContext} {run : RowRun} {env : StepEnv} (positive : 0 < maxAttempts)
    (enough : maxAttempts ≤ env.attempts.length) :
    ∃ execution, executeStep sha256Hex describe maxAttempts jobID rowIndex stepIndex step ctx run
      env = some execution := by
  apply Option.isSome_iff_exists.mp
  unfold executeStep
  split
  · rfl
  · split
    · rfl
    · split
      · rfl
      · rw [Option.isSome_map]
        exact executeActivity_completes _ env.attempts maxAttempts positive enough

theorem runChain_completes {maxAttempts : Nat} {rowIndex : Int} {multiStep : Bool} {run : RowRun}
    (positive : 0 < maxAttempts) (steps : List Step) :
    ∀ (stepIndex : Int) (envs : List StepEnv) (chain : Chain), chain.error = none →
      steps.length ≤ envs.length →
      (∀ env ∈ envs, env.persist = none ∧ maxAttempts ≤ env.attempts.length) →
      ∃ final, runChain sha256Hex describe maxAttempts jobID rowIndex multiStep run stepIndex steps
        envs chain = some final ∧ final.error = none := by
  induction steps with
  | nil =>
      intro stepIndex envs chain fine _enough _all
      exact ⟨chain, rfl, fine⟩
  | cons step rest ih =>
      intro stepIndex envs chain fine enough all
      rw [List.length_cons] at enough
      unfold runChain
      split
      · exact ih _ envs _ fine (by omega) all
      · cases envs with
        | nil =>
            rw [List.length_nil] at enough
            omega
        | cons env later =>
            obtain ⟨recorded, attempts⟩ := all env List.mem_cons_self
            rw [List.length_cons] at enough
            have behind : ∀ other ∈ later,
                other.persist = none ∧ maxAttempts ≤ other.attempts.length :=
              fun other member => all other (List.mem_cons_of_mem _ member)
            obtain ⟨execution, executed⟩ := @executeStep_completes sha256Hex describe jobID
              maxAttempts rowIndex stepIndex step chain.ctx run env positive attempts
            have fineAfter : (chain.after multiStep rowIndex step env execution).1.error = none :=
              (Chain.after_error recorded _ _ _).trans fine
            simp only [executed]
            split
            · exact ⟨_, rfl, fineAfter⟩
            · exact ih _ later _ fineAfter (by omega) behind

private theorem retryPersistedRow_completes {store : RowStore} {rowIndex : Int} {env : RetryRowEnv}
    {result : MigrationWorkflowResult} (positive : 0 < template.maxAttempts)
    (completes : RetryRowCompletes template env) :
    ∃ retried, retryPersistedRow sha256Hex describe jobID runID template store rowIndex fromStart
      false env result = some retried ∧ retried.error = none := by
  unfold retryPersistedRow
  rw [completes.load]
  simp only
  cases (loadRowState store rowIndex).row with
  | none => exact ⟨_, rfl, completes.missing⟩
  | some data =>
      obtain ⟨chain, ran, fine⟩ := @runChain_completes sha256Hex describe jobID
        template.maxAttempts rowIndex (decide (1 < template.steps.length))
        (retryRun (loadRowState store rowIndex) fromStart false) positive template.steps 0
        env.row.steps { ctx := { row := data } } rfl completes.steps completes.attempts
      simp only [processOneRow, ran, Option.map_some, fine, completes.persist, Option.map_none]
      exact ⟨_, rfl, rfl⟩

private theorem retryRows_completes (positive : 0 < template.maxAttempts) (page : List Int) :
    ∀ (envs : List RetryRowEnv) (store : RowStore) (result : MigrationWorkflowResult),
      page.length ≤ envs.length → (∀ env ∈ envs, RetryRowCompletes template env) →
      ∃ retried, retryRows sha256Hex describe jobID runID template fromStart page envs store
        result = some retried ∧ retried.error = none := by
  induction page with
  | nil =>
      intro envs store result _enough _all
      exact ⟨_, rfl, rfl⟩
  | cons rowIndex rest ih =>
      intro envs store result enough all
      rw [List.length_cons] at enough
      cases envs with
      | nil =>
          rw [List.length_nil] at enough
          omega
      | cons env later =>
          rw [List.length_cons] at enough
          obtain ⟨first, ran, fine⟩ := @retryPersistedRow_completes sha256Hex describe jobID runID
            template fromStart store rowIndex env result positive (all env List.mem_cons_self)
          unfold retryRows
          simp only [ran, fine]
          exact ih later first.store first.result (by omega)
            (fun other member => all other (List.mem_cons_of_mem _ member))

theorem retryPages_completes (positive : 0 < template.maxAttempts) (envs : List PageEnv) :
    ∀ run : FailedRowsRun, run.processedThisRun < rowsPerRun →
      rowsPerRun ≤ run.processedThisRun + pageLimit * envs.length →
      (∀ env ∈ envs, PageCompletes template env) →
      ∃ ended, retryPages sha256Hex describe jobID runID template fromStart envs run =
        some ended ∧ ∀ world, ended ≠ .failed world := by
  induction envs with
  | nil =>
      intro run few enough _all
      rw [List.length_nil] at enough
      omega
  | cons env rest ih =>
      intro run few enough all
      rw [List.length_cons, Nat.mul_succ] at enough
      have own := all env List.mem_cons_self
      have size : (listFailedRows run.world.store.rows run.cursor pageLimit).length ≤
          pageLimit := List.length_take_le _ _
      obtain ⟨retried, ran, fine⟩ := @retryRows_completes sha256Hex describe jobID runID template
        fromStart positive (listFailedRows run.world.store.rows run.cursor pageLimit) env.rows
        run.world.store run.result (le_trans size own.enough) own.rows
      unfold retryPages
      simp only [own.list, ran, fine]
      split
      · exact ⟨_, rfl, fun world => PagesEnd.noConfusion⟩
      · split
        · exact ⟨_, rfl, fun world => PagesEnd.noConfusion⟩
        · rename_i full
          split
          · exact ⟨_, rfl, fun world => PagesEnd.noConfusion⟩
          · rename_i fewStill
            apply ih
            · exact Nat.lt_of_not_le fewStill
            · change rowsPerRun ≤ run.processedThisRun +
                (listFailedRows run.world.store.rows run.cursor pageLimit).length +
                  pageLimit * rest.length
              omega
            · intro other member
              exact all other (List.mem_cons_of_mem _ member)

/-! ### The chain of runs -/

private theorem calledFailedRows_start (runs : List FailedRowsEnv) :
    ∀ (s : RetriedJob) (after : Int), (indexes s.store.rows).Nodup →
      calledFailedRows sha256Hex describe jobID runID fromStart runs s after <+:
        above after (failedIn s.store) := by
  induction runs with
  | nil =>
      intro s after _distinct
      exact List.nil_prefix
  | cons env rest ih =>
      intro s after distinct
      unfold calledFailedRows
      cases env.start.template with
      | none => exact List.nil_prefix
      | some template =>
          have pages := @retryPages_called sha256Hex describe jobID runID template fromStart
            env.pages { world := s, cursor := after } distinct
          simp only
          split
          · rename_i world cursor ended
            rw [ended] at pages
            obtain ⟨rows, _many, distinctAfter⟩ := pages
            rw [← rows]
            exact List.prefix_append_right_inj _ |>.mpr (ih world cursor distinctAfter)
          · rw [List.append_nil]
            exact pages.start

theorem calledFailedRows_completes (runs : List FailedRowsEnv) :
    ∀ (s : RetriedJob) (after : Int), (indexes s.store.rows).Nodup →
      (above after (failedIn s.store)).length < rowsPerRun * runs.length →
      (∀ env ∈ runs, ∃ template, RunCompletes template env) →
      calledFailedRows sha256Hex describe jobID runID fromStart runs s after =
          above after (failedIn s.store) ∧
        ∃ final, retryFailedRows sha256Hex describe jobID runID fromStart runs s after =
          some final := by
  induction runs with
  | nil =>
      intro s after _distinct enough _all
      rw [List.length_nil] at enough
      omega
  | cons env rest ih =>
      intro s after distinct enough all
      rw [List.length_cons, Nat.mul_succ] at enough
      obtain ⟨template, completes⟩ := all env List.mem_cons_self
      have pages := @retryPages_called sha256Hex describe jobID runID template fromStart
        env.pages { world := s, cursor := after } distinct
      obtain ⟨ended, ran, went⟩ := @retryPages_completes sha256Hex describe jobID runID template
        fromStart completes.attempts env.pages { world := s, cursor := after }
        (show 0 < rowsPerRun by decide)
        (le_trans completes.enough (Nat.le_add_left _ _)) completes.pages
      unfold calledFailedRows retryFailedRows
      rw [ran] at pages
      simp only [completes.start, ran]
      cases ended with
      | finished world =>
          simp only [List.append_nil]
          exact ⟨pages, _, rfl⟩
      | failed world => exact absurd rfl (went world)
      | continued world cursor =>
          obtain ⟨split, many, distinctAfter⟩ := pages
          have rows : _ ++ above cursor (failedIn world.store) = above after (failedIn s.store) :=
            split
          have whole := congrArg List.length rows
          rw [List.length_append] at whole
          have fewer : (above cursor (failedIn world.store)).length < rowsPerRun * rest.length := by
            change rowsPerRun ≤ 0 + _ at many
            omega
          obtain ⟨called, final, finished⟩ := ih world cursor distinctAfter fewer
            (fun other member => all other (List.mem_cons_of_mem _ member))
          simp only
          rw [called]
          exact ⟨rows, final, finished⟩

end Retries

/-- The workflow ends, and it has called `retryPersistedRow` on the rows that were
failed when it started, on each once and in the order of their indexes. -/
structure RetriesFailedRows (sha256Hex : String → String) (describe : ActivityError → String)
    (jobID : Int) (runID : String) (fromStart : Bool) (runs : List FailedRowsEnv)
    (s : RetriedJob) : Prop where
  ends : ∃ final, retryFailedRows sha256Hex describe jobID runID fromStart runs s (-1) = some final
  ascending : (calledFailedRows sha256Hex describe jobID runID fromStart runs s (-1)).Pairwise
    (· < ·)
  called : ∀ index, index ∈ calledFailedRows sha256Hex describe jobID runID fromStart runs s (-1) ↔
    ∃ row ∈ s.store.rows, row.index = index ∧ row.status = .failed

/-- Runs enough for the failed rows of the job, in which no activity fails. -/
structure ChainCompletes (s : RetriedJob) (runs : List FailedRowsEnv) : Prop where
  enough : (failedIn s.store).length < rowsPerRun * runs.length
  runs : ∀ env ∈ runs, ∃ template, RunCompletes template env

/-- A workflow that is ended by an error has retried the first of the failed rows
from zero on. One that is not retries every failed row once exactly when none of
them is below zero. -/
theorem failed_rows_retried_once_iff (sha256Hex : String → String)
    (describe : ActivityError → String) (jobID : Int) (runID : String) (fromStart : Bool)
    (s : RetriedJob) (distinct : (indexes s.store.rows).Nodup) :
    (∀ runs, calledFailedRows sha256Hex describe jobID runID fromStart runs s (-1) <+:
      above (-1) (failedIn s.store)) ∧
    ∀ runs, ChainCompletes s runs →
      (RetriesFailedRows sha256Hex describe jobID runID fromStart runs s ↔
        ∀ row ∈ s.store.rows, row.status = .failed → 0 ≤ row.index) := by
  constructor
  · intro runs
    exact calledFailedRows_start runs s (-1) distinct
  · intro runs completes
    have ascending : (failedIn s.store).Pairwise (· < ·) := failedRows_ascending distinct
    have fewer : (above (-1) (failedIn s.store)).length < rowsPerRun * runs.length :=
      lt_of_le_of_lt (List.length_filter_le _ _) completes.enough
    obtain ⟨called, ends⟩ := @calledFailedRows_completes sha256Hex describe jobID runID fromStart
      runs s (-1) distinct fewer completes.runs
    constructor
    · intro retries row member failed
      have retried := (retries.called row.index).mpr ⟨row, member, rfl, failed⟩
      rw [called] at retried
      have fromZero := (mem_above.mp retried).2
      omega
    · intro fromZero
      refine ⟨ends, ?_, ?_⟩
      · rw [called]
        exact above_ascending ascending (-1)
      · intro index
        rw [called, mem_above]
        constructor
        · intro both
          exact mem_failedRows.mp both.1
        · intro stored
          obtain ⟨row, member, same, failed⟩ := stored
          have bound := fromZero row member failed
          exact ⟨mem_failedRows.mpr ⟨row, member, same, failed⟩, by omega⟩

def succeedingRun : FailedRowsEnv :=
  { start := { loaded := .ok { version := 1, steps := [createStep] } }
    pages := List.replicate 10
      { rows := List.replicate 200
          { row := { steps := [{ attempts := List.replicate 5 (answered "run:1:1" none 201) }] } } } }

theorem succeedingRun_completes :
    ∀ env ∈ [succeedingRun], ∃ template, RunCompletes template env := by
  intro env member
  rw [List.mem_singleton.mp member]
  refine ⟨{ version := 1, steps := [createStep] }, rfl, by decide, by decide, ?_⟩
  intro page pageMember
  rw [List.eq_of_mem_replicate pageMember]
  refine ⟨rfl, le_of_eq List.length_replicate.symm, ?_⟩
  intro row rowMember
  rw [List.eq_of_mem_replicate rowMember]
  refine ⟨rfl, rfl, rfl, by decide, ?_⟩
  intro step stepMember
  rw [List.mem_singleton.mp stepMember]
  exact ⟨rfl, by decide⟩

def twoFailedRows : RetriedJob :=
  { job := { status := .failed, totals := none }
    store :=
      { rows :=
          [{ index := 3, status := .failed, rowJSON := some [("id", .text "3")] },
            { index := 0, status := .failed, rowJSON := some [("id", .text "0")] },
            { index := 1, status := .succeeded }, { index := 2, status := .unresolved }] } }

theorem failed_rows_of_job_retried :
    RetriesFailedRows createSha256 describeError 7 "run" false [succeedingRun] twoFailedRows := by
  apply ((failed_rows_retried_once_iff createSha256 describeError 7 "run" false twoFailedRows
    (by decide)).2 [succeedingRun] ⟨by decide, succeedingRun_completes⟩).mpr
  decide

/-- Retrying row -1 of a job creates a failed row -1, which no retry of the failed
rows takes up. -/
theorem row_below_zero_not_retried :
    ∃ s, runRetry createSha256 describeError 7 "run" oneRow (createRow (-1)) = some s ∧
      indexes s.store.rows = [0, -1] ∧ failedIn s.store = [-1] ∧
      ChainCompletes s [succeedingRun] ∧
      calledFailedRows createSha256 describeError 7 "run" false [succeedingRun] s (-1) = [] ∧
      ¬RetriesFailedRows createSha256 describeError 7 "run" false [succeedingRun] s := by
  refine ⟨_, rfl, rfl, by decide, ⟨by decide, succeedingRun_completes⟩, rfl, ?_⟩
  intro retries
  have listed := (retries.called (-1)).mpr ⟨_, List.mem_cons_of_mem _ List.mem_cons_self, rfl, rfl⟩
  cases listed

end MigrationPlatform.Lifecycle
