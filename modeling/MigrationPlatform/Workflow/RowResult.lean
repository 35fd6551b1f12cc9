/-
The result that a row keeps of its chain: the payload and the response in
`job_rows`, which the export reads.

A run writes there the step that it executed last. That is the last step of the
chain as long as no run takes up the row once that step is recorded succeeded,
and the row is recorded with it.
-/

import MigrationPlatform.Workflow.ChainResume

namespace MigrationPlatform.Workflow

open MigrationPlatform.Connectors KeyedTable

def RowStore.stepAt (store : RowStore) (index : Int) (place : Nat) : Option StoredStep :=
  lookup StoredStep.key (index, (place : Int)) store.steps

section Places

variable {older : List Step} {last : Step} {runID : String} {index : Int}

private theorem stepOutcome_key_last {execution : StepExecution}
    (apart : ∀ step ∈ older, step.name ≠ last.name) (named : execution.stepName = last.name) :
    (stepOutcome runID index (older ++ [last]) execution).inserted.key =
      (index, (older.length : Int)) := by
  have before : older.findIdx (fun step => decide (step.name = execution.stepName)) =
      older.length := by
    apply List.findIdx_eq_length_of_false
    intro step member
    rw [named]
    exact decide_eq_false (apart step member)
  have place : (older ++ [last]).findIdx (fun step => decide (step.name = execution.stepName)) =
      older.length := by
    rw [List.findIdx_append, before, if_neg (Nat.lt_irrefl _), List.findIdx_singleton, named,
      decide_eq_true rfl, if_pos rfl, Nat.zero_add]
  change (index, (((older ++ [last]).findIdx _ : Nat) : Int)) = _
  rw [place]

private theorem stepOutcome_key_other {execution : StepExecution}
    (other : execution.stepName ≠ last.name) :
    (index, (older.length : Int)) ≠
      (stepOutcome runID index (older ++ [last]) execution).inserted.key := by
  intro same
  have place := congrArg Prod.snd same
  change (older.length : Int) = (((older ++ [last]).findIdx _ : Nat) : Int) at place
  rw [List.findIdx_append, List.findIdx_singleton,
    decide_eq_false (fun named => other (Eq.symm named))] at place
  by_cases before : older.findIdx (fun step => decide (step.name = execution.stepName)) <
      older.length
  · rw [if_pos before] at place
    omega
  · rw [if_neg before, if_neg Bool.false_ne_true] at place
    omega

theorem Ran.newest_only {run : RowRun} {broken : Bool} {executed : List StepExecution}
    (apart : ∀ step ∈ older, step.name ≠ last.name)
    (ran : Ran run broken (older ++ [last]) executed) :
    ∀ execution ∈ executed.dropLast, execution.stepName ≠ last.name := by
  induction older generalizing executed with
  | nil =>
      intro execution member
      cases ran with
      | skipped _ rest =>
          cases rest
          cases member
      | lost => cases member
      | stopped => cases member
      | went _ _ _ rest =>
          cases rest
          cases member
  | cons step rest ih =>
      intro execution member
      have later : ∀ other ∈ rest, other.name ≠ last.name :=
        fun other among => apart other (List.mem_cons_of_mem _ among)
      cases ran with
      | skipped _ resumed => exact ih later resumed execution member
      | lost => cases member
      | stopped => cases member
      | @went _ _ first others _ named _ resumed =>
          cases others with
          | nil => cases member
          | cons second others =>
              rw [List.dropLast_cons_cons] at member
              rcases List.mem_cons.mp member with rfl | among
              · rw [named]
                exact apart step List.mem_cons_self
              · exact ih later resumed execution among

theorem lookup_foldl_other {executed : List StepExecution}
    (others : ∀ execution ∈ executed, execution.stepName ≠ last.name) (stored : List StoredStep) :
    lookup StoredStep.key (index, (older.length : Int))
      (executed.foldl (fun stored execution =>
        persistStepOutcome stored (stepOutcome runID index (older ++ [last]) execution)) stored) =
      lookup StoredStep.key (index, (older.length : Int)) stored := by
  induction executed generalizing stored with
  | nil => rfl
  | cons execution rest ih =>
      rw [List.foldl_cons, ih (fun other among => others other (List.mem_cons_of_mem _ among))]
      apply lookup_upsert_other
      · intro step
        rfl
      · exact stepOutcome_key_other (others execution List.mem_cons_self)

private theorem lookup_persistStepOutcome {execution : StepExecution}
    (apart : ∀ step ∈ older, step.name ≠ last.name) (named : execution.stepName = last.name)
    (stored : List StoredStep) :
    ∃ step, lookup StoredStep.key (index, (older.length : Int)) (persistStepOutcome stored
        (stepOutcome runID index (older ++ [last]) execution)) = some step ∧
      step.requestJSON = storedPayload execution.record.request ∧
      step.responseJSON = storedResponse execution.record.response := by
  have keeps : ∀ step, ((stepOutcome runID index (older ++ [last]) execution).updated step).key =
      step.key := fun _ => rfl
  rw [← stepOutcome_key_last apart named]
  refine ⟨_, @lookup_upsert_self _ _ _ StoredStep.key _ _ keeps stored, ?_⟩
  cases lookup StoredStep.key _ stored with
  | none => exact ⟨rfl, rfl⟩
  | some old => exact ⟨rfl, rfl⟩

end Places

def RowStore.LastOpen (store : RowStore) (index : Int) (place : Nat) : Prop :=
  ∀ last, store.stepAt index place = some last → last.status ≠ .succeeded

/-- Where the last step is recorded succeeded, the row has its payload and
response. -/
def RowStore.ResultOfLast (store : RowStore) (index : Int) (place : Nat) : Prop :=
  ∀ last, store.stepAt index place = some last → last.status = .succeeded →
    ∃ stored, lookup StoredRow.index index store.rows = some stored ∧
      stored.payloadJSON = last.requestJSON ∧ stored.responseJSON = last.responseJSON

theorem RowStore.LastOpen.resultOfLast {store other : RowStore} {index : Int} {place : Nat}
    (isOpen : store.LastOpen index place)
    (same : other.stepAt index place = store.stepAt index place) :
    other.ResultOfLast index place := by
  intro last found succeeded
  rw [same] at found
  exact absurd succeeded (isOpen last found)

private theorem lookup_rowOutcome (rows : List StoredRow) (runID : String) (row : Row)
    (multiStep : Bool)
    (newest : StepExecution) (earlier : List StepExecution) (status : StepStatus) :
    ∃ stored, lookup StoredRow.index row.index (persistOutcome rows
        (rowOutcome runID row multiStep (newest :: earlier) status)) = some stored ∧
      stored.payloadJSON = storedPayload newest.record.request ∧
      stored.responseJSON = storedResponse newest.record.response := by
  refine ⟨_, lookup_persistOutcome rows
    (rowOutcome runID row multiStep (newest :: earlier) status), ?_⟩
  cases lookup StoredRow.index _ rows with
  | none => exact ⟨rfl, rfl⟩
  | some old => exact ⟨rfl, rfl⟩

section Recorded

variable {older : List Step} {last : Step} {store : RowStore} {row : Row} {run : RowRun}
variable {processed : RowExecution} {executed : Bool}

theorem afterRow_resultOfLast (runID : String) (several : older ≠ [])
    (apart : ∀ step ∈ older, step.name ≠ last.name)
    (ran : Ran run processed.status.isNone (older ++ [last]) processed.executed.reverse)
    (isOpen : store.LastOpen row.index older.length)
    (broken : processed.status = none → executed = false)
    (recorded : processed.status ≠ none → processed.error.isNone = true ∨ executed = true) :
    (store.afterRow runID row (older ++ [last]) processed executed).ResultOfLast row.index
      older.length := by
  have multiStep : decide (1 < (older ++ [last]).length) = true := by
    rw [List.length_append, List.length_singleton]
    have before := List.length_pos_of_ne_nil several
    exact decide_eq_true (by omega)
  unfold RowStore.afterRow
  rw [multiStep]
  cases all : processed.executed with
  | nil =>
      apply isOpen.resultOfLast
      unfold RowStore.stepAt recordedSteps
      simp only [all, List.reverse_nil, List.tail_nil, ite_self, List.foldl_nil]
  | cons newest earlier =>
      rw [all, List.reverse_cons] at ran
      have others := ran.newest_only apart
      rw [List.dropLast_concat] at others
      cases status : processed.status with
      | none =>
          apply isOpen.resultOfLast
          unfold RowStore.stepAt recordedSteps
          simp only [all, status, broken status]
          exact lookup_foldl_other others store.steps
      | some final =>
          have kept := recorded (by rw [status]; exact Option.some_ne_none final)
          simp only
          rw [if_pos kept]
          have steps : recordedSteps true executed processed = earlier.reverse ++ [newest] := by
            unfold recordedSteps
            rw [if_neg (fun impossible => Bool.noConfusion impossible), status,
              if_pos (.inl rfl), all, List.reverse_cons]
          rw [steps, List.foldl_append, List.foldl_cons, List.foldl_nil]
          by_cases named : newest.stepName = last.name
          · obtain ⟨step, stepStored, request, response⟩ :=
              @lookup_persistStepOutcome older last runID row.index newest apart named
                (earlier.reverse.foldl (fun stored execution => persistStepOutcome stored
                  (stepOutcome runID row.index (older ++ [last]) execution)) store.steps)
            obtain ⟨stored, rowStored, payload, body⟩ :=
              lookup_rowOutcome store.rows runID row true newest earlier final
            intro found here _succeeded
            cases (stepStored.symm.trans here)
            exact ⟨stored, rowStored, payload.trans request.symm, body.trans response.symm⟩
          · apply isOpen.resultOfLast
            have all : ∀ execution ∈ earlier.reverse ++ [newest],
                execution.stepName ≠ last.name := by
              intro execution member
              rcases List.mem_append.mp member with among | here
              · exact others execution among
              · rw [List.mem_singleton.mp here]
                exact named
            have unchanged := @lookup_foldl_other older last runID row.index _ all store.steps
            rw [List.foldl_append, List.foldl_cons, List.foldl_nil] at unchanged
            exact unchanged

end Recorded

structure RecordsResult (env : RowEnv) (executed : Bool) : Prop where
  steps : executed = true → ∀ step ∈ env.steps, step.persist = none
  row : executed = false → env.persist = none

/-- The run finds the last step of the chain open, and records the row with it. -/
def KeepsResult (steps : List Step) (row : Row) (store : RowStore) : RowAction → Prop
  | .process _ env executed =>
      store.LastOpen row.index (steps.length - 1) ∧ RecordsResult env executed
  | .retry _ _ _ env =>
      env.load = none →
        store.LastOpen row.index (steps.length - 1) ∧ RecordsResult env.row env.executed

section Histories

variable {sha256Hex : String → String} {describe : ActivityError → String} {maxAttempts : Nat}
variable {jobID : Int} {row : Row} {store : RowStore} {run : RowRun}

private theorem runChain_error {rowIndex : Int} {multiStep : Bool} (steps : List Step)
    (stepIndex : Int)
    (envs : List StepEnv) (chain final : Chain) (recorded : ∀ env ∈ envs, env.persist = none)
    (ran : runChain sha256Hex describe maxAttempts jobID rowIndex multiStep run stepIndex steps
      envs chain = some final) : final.error = chain.error := by
  refine runChain_invariant (fun env => env.persist = none)
    (fun other => other.error = chain.error) ?_ ?_ steps stepIndex envs chain recorded rfl ran
  · intro other step body same
    exact same
  · intro index other step env execution unlost same _executed
    rw [Chain.after_error unlost]
    exact same

theorem processOneRow_records {steps : List Step} {env : RowEnv} {executed : Bool}
    {result : MigrationWorkflowResult} {processed : RowExecution}
    (records : RecordsResult env executed)
    (ran : processOneRow sha256Hex describe maxAttempts jobID row steps run env.steps env.persist
      result = some processed) :
    (processed.status = none → executed = false) ∧
      (processed.status ≠ none → processed.error.isNone = true ∨ executed = true) := by
  obtain ⟨chain, chained, rfl⟩ := Option.map_eq_some_iff.mp ran
  cases error : chain.error with
  | some message =>
      constructor
      · intro _lost
        cases executed with
        | false => rfl
        | true =>
            have recorded := runChain_error steps 0 env.steps _ chain (records.steps rfl) chained
            rw [error] at recorded
            cases recorded
      · intro impossible
        exact absurd rfl impossible
  | none =>
      constructor
      · intro impossible
        cases impossible
      · intro _status
        cases executed with
        | true => exact .inr rfl
        | false =>
            left
            simp only [records.row rfl]
            rfl

theorem rowStep_resultOfLast {template : LoadTemplateOutput} {older : List Step} {last : Step}
    {action : RowAction} {next : RowStore} (split : template.steps = older ++ [last])
    (several : older ≠ []) (apart : ∀ step ∈ older, step.name ≠ last.name)
    (keeps : KeepsResult template.steps row store action)
    (holds : store.ResultOfLast row.index older.length)
    (taken : rowStep sha256Hex describe jobID template row store action = some next) :
    next.ResultOfLast row.index older.length := by
  have place : template.steps.length - 1 = older.length := by
    rw [split, List.length_append, List.length_singleton, Nat.add_sub_cancel]
  cases action with
  | process runID env executed =>
      obtain ⟨processed, processing, rfl⟩ := Option.map_eq_some_iff.mp taken
      obtain ⟨isOpen, records⟩ := keeps
      rw [place] at isOpen
      obtain ⟨broken, recorded⟩ := processOneRow_records records processing
      rw [split] at processing ⊢
      exact afterRow_resultOfLast runID several apart (processOneRow_ran processing).1 isOpen
        broken recorded
  | retry runID fromStart confirmNotApplied env =>
      obtain ⟨retried, ran, rfl⟩ := Option.map_eq_some_iff.mp taken
      rcases retryPersistedRow_cases ran with ⟨message, _, rfl⟩ | ⟨loads, _, _, _, stored⟩ |
        ⟨loads, data, processed, _, processing, _, _, stored⟩
      · exact holds
      · obtain ⟨isOpen, _⟩ := keeps loads
        rw [place] at isOpen
        apply isOpen.resultOfLast
        rw [stored]
        split
        · rfl
        · rfl
      · obtain ⟨isOpen, records⟩ := keeps loads
        rw [place] at isOpen
        obtain ⟨broken, recorded⟩ := processOneRow_records records processing
        rw [stored]
        rw [split] at processing ⊢
        exact @afterRow_resultOfLast older last store { index := row.index, data := data } _
          processed env.executed runID several apart (processOneRow_ran processing).1 isOpen
          broken recorded

theorem RowStore.Untouched.lastOpen {place : Nat} (untouched : store.Untouched row.index) :
    store.LastOpen row.index place := by
  intro step found
  obtain ⟨member, key⟩ := mem_of_lookup found
  exact absurd (congrArg Prod.fst key) (untouched.steps step member)

private theorem chain_last {steps : List Step} (several : 1 < steps.length)
    (unique : (steps.map Step.name).Nodup) :
    ∃ older last, steps = older ++ [last] ∧ older ≠ [] ∧
      (∀ step ∈ older, step.name ≠ last.name) ∧ steps.length - 1 = older.length := by
  rcases List.eq_nil_or_concat' steps with rfl | ⟨older, last, rfl⟩
  · cases several
  · rw [List.length_append, List.length_singleton] at several ⊢
    refine ⟨older, last, rfl, ?_, ?_, by omega⟩
    · apply List.ne_nil_of_length_pos
      omega
    · rw [List.map_append, List.nodup_append] at unique
      intro step member
      exact unique.2.2 step.name (List.mem_map_of_mem member) last.name List.mem_cons_self

theorem row_result_is_last_step {template : LoadTemplateOutput} {initial : RowStore}
    {actions : List RowAction} (several : 1 < template.steps.length)
    (unique : (template.steps.map Step.name).Nodup) (untouched : initial.Untouched row.index)
    (keeps : GuardedRuns.Obeys (rowStep sha256Hex describe jobID template row)
      (KeepsResult template.steps row) initial actions)
    (ran : GuardedRuns.run (rowStep sha256Hex describe jobID template row) initial actions =
      some store)
    (succeeded : ∀ place < template.steps.length,
      ∃ step, store.stepAt row.index place = some step ∧ step.status = .succeeded) :
    ∃ last stored, store.stepAt row.index (template.steps.length - 1) = some last ∧
      lookup StoredRow.index row.index store.rows = some stored ∧
      stored.payloadJSON = last.requestJSON ∧ stored.responseJSON = last.responseJSON ∧
      ∀ (fresh : RowStore) (runID : String) (envs : List StepEnv) (persist : Option String)
          (result : MigrationWorkflowResult) (whole : RowExecution) (executed : Bool)
          (same : StoredStep),
        fresh.Untouched row.index →
        processOneRow sha256Hex describe template.maxAttempts jobID row template.steps {} envs
          persist result = some whole →
        whole.error = none →
        (fresh.afterRow runID row template.steps whole executed).stepAt row.index
          (template.steps.length - 1) = some same →
        same.status = .succeeded → same.requestJSON = last.requestJSON →
        same.responseJSON = last.responseJSON →
        ∃ uninterrupted, lookup StoredRow.index row.index
            (fresh.afterRow runID row template.steps whole executed).rows = some uninterrupted ∧
          stored.payloadJSON = uninterrupted.payloadJSON ∧
          stored.responseJSON = uninterrupted.responseJSON := by
  obtain ⟨older, last, split, before, apart, place⟩ := chain_last several unique
  have result : store.ResultOfLast row.index older.length :=
    GuardedRuns.invariant_of_obeys
      (fun _ _ _ kept holds taken => rowStep_resultOfLast split before apart kept holds taken)
      actions initial store (untouched.lastOpen.resultOfLast rfl) keeps ran
  obtain ⟨final, found, done⟩ := succeeded older.length (by omega)
  obtain ⟨stored, rowStored, payload, response⟩ := result final found done
  rw [place]
  refine ⟨final, stored, found, rowStored, payload, response, ?_⟩
  intro fresh runID envs persist total whole executed same clean processing completed here ended
    request body
  have status := processOneRow_status processing completed
  rw [split] at processing here ⊢
  have once := @afterRow_resultOfLast older last fresh row _ whole executed runID before apart
    (processOneRow_ran processing).1 clean.lastOpen
    (fun impossible => by rw [impossible] at status; cases status)
    (fun _ => by rw [completed]; exact .inl rfl)
  obtain ⟨uninterrupted, kept, itsPayload, itsResponse⟩ := once same here ended
  refine ⟨uninterrupted, kept, ?_, ?_⟩
  · rw [payload, itsPayload, request]
  · rw [response, itsResponse, body]

end Histories

/-! ### Runs -/

def resumedContact : List RowAction :=
  interrupted ++ [.retry "second" false false { row := { steps := [createdContact] } }]

theorem resumed_contact_result :
    ∃ store last stored,
      GuardedRuns.run (rowStep chainSha256 describeError 7 accountTemplate namedRow) {}
        resumedContact = some store ∧
      store.stepAt 3 1 = some last ∧ last.stepName = "contact" ∧
      lookup StoredRow.index 3 store.rows = some stored ∧
      stored.payloadJSON = last.requestJSON ∧ stored.responseJSON = last.responseJSON := by
  have keeps : GuardedRuns.Obeys (rowStep chainSha256 describeError 7 accountTemplate namedRow)
      (KeepsResult accountTemplate.steps namedRow) {} resumedContact := by
    refine And.intro ⟨(untouched_of_nothing 3).lastOpen, ?_⟩ (And.intro ?_ trivial)
    · constructor
      · intro _executed step member
        rcases List.mem_cons.mp member with rfl | member
        · rfl
        · cases List.mem_singleton.mp member
          rfl
      · intro _lost
        rfl
    · intro _loads
      constructor
      · intro last found
        cases found
        decide
      · constructor
        · intro impossible
          cases impossible
        · intro _lost
          rfl
  have succeeded : ∀ store, GuardedRuns.run (rowStep chainSha256 describeError 7 accountTemplate
      namedRow) {} resumedContact = some store → ∀ place < 2,
        ∃ step, store.stepAt 3 place = some step ∧ step.status = .succeeded := by
    intro store ran place before
    cases ran
    obtain rfl | rfl : place = 0 ∨ place = 1 := by omega
    · exact ⟨_, rfl, rfl⟩
    · exact ⟨_, rfl, rfl⟩
  obtain ⟨last, stored, found, kept, payload, response, _⟩ := row_result_is_last_step
    (by decide) (by decide) (untouched_of_nothing 3) keeps rfl
    (succeeded _ rfl)
  cases found
  exact ⟨_, _, stored, rfl, rfl, rfl, kept, payload, response⟩

def contactFirst : TemplateStep (Option String) :=
  { contactStep with
    continuesOnFailure := true
    render := fun _ _ =>
      { payload := .ok "\x7b\"n\":1\x7d", destination := .ok "https://api/contacts" } }

def contactFirstTemplate : LoadTemplateOutput :=
  withSteps { version := 1, maxAttempts := 1, steps := [] } responseID [contactFirst, accountStep]

/-- The first step fails and the second succeeds; the retry executes the first. -/
theorem retry_replaces_result :
    ∃ store last stored,
      GuardedRuns.run (rowStep chainSha256 describeError 7 contactFirstTemplate namedRow) {}
        [.process "first" { steps := [unsentContact, createdAccount] } true,
          .retry "second" false false { row := { steps := [createdContact] } }] = some store ∧
      (∀ place < contactFirstTemplate.steps.length,
        ∃ step, store.stepAt 3 place = some step ∧ step.status = .succeeded) ∧
      store.stepAt 3 1 = some last ∧ last.responseJSON = "\x7b\"id\":\"12\"\x7d" ∧
      lookup StoredRow.index 3 store.rows = some stored ∧ stored.responseJSON = "null" := by
  refine ⟨_, _, _, rfl, ?_, rfl, rfl, rfl, rfl⟩
  intro place before
  obtain rfl | rfl : place = 0 ∨ place = 1 := by
    change place < 2 at before
    omega
  · exact ⟨_, rfl, rfl⟩
  · exact ⟨_, rfl, rfl⟩

end MigrationPlatform.Workflow
