/-
A row through its first processing and its retries.

`Ran` is the shape of a chain that has run: which steps it skipped because a
run before had recorded them, which it executed, and where it stopped. A
history of a row is a list of runs on the job's store.
-/

import MigrationPlatform.Foundation.GuardedRuns
import MigrationPlatform.Workflow.RowRetry

namespace MigrationPlatform.Workflow

open MigrationPlatform.Connectors KeyedTable

def RowRun.recorded (run : RowRun) (name : String) : Option String :=
  run.resume.bind (fun responses => responses.lookup name)

/-- The chain ends at a step that may have been applied, or that failed and is
not to be passed over. -/
def Step.StopsAt (step : Step) (record : OutcomeRecord) : Prop :=
  record.status = .unresolved ∨ record.status = .failed ∧ step.continuesOnFailure = false

/-- The steps that a chain executed, oldest first. `broken` says that the last
of them could not be recorded. -/
inductive Ran (run : RowRun) (broken : Bool) : List Step → List StepExecution → Prop
  | nil : Ran run broken [] []
  | skipped {step : Step} {steps : List Step} {executed : List StepExecution} {body : String}
      (found : run.recorded step.name = some body) (rest : Ran run broken steps executed) :
      Ran run broken (step :: steps) executed
  | lost {step : Step} {steps : List Step} {execution : StepExecution}
      (absent : run.recorded step.name = none) (named : execution.stepName = step.name)
      (unrecorded : broken = true) : Ran run broken (step :: steps) [execution]
  | stopped {step : Step} {steps : List Step} {execution : StepExecution}
      (absent : run.recorded step.name = none) (named : execution.stepName = step.name)
      (stops : step.StopsAt execution.record) : Ran run broken (step :: steps) [execution]
  | went {step : Step} {steps : List Step} {execution : StepExecution}
      {executed : List StepExecution} (absent : run.recorded step.name = none)
      (named : execution.stepName = step.name) (goes : ¬step.StopsAt execution.record)
      (rest : Ran run broken steps executed) :
      Ran run broken (step :: steps) (execution :: executed)

def RenderContext.behind (ctx : RenderContext) (step : Step) (execution : StepExecution) :
    RenderContext :=
  if execution.record.status = .succeeded then
    ctx.addResponse step.name (execution.record.response.getD "")
  else ctx

def renderedAt (run : RowRun) :
    List StepExecution → List Step → RenderContext → List (Step × RenderContext)
  | _, [], _ => []
  | executed, step :: rest, ctx =>
      match run.recorded step.name with
      | some body => renderedAt run executed rest (ctx.addResponse step.name body)
      | none =>
          match executed with
          | [] => []
          | execution :: later =>
              (step, ctx) :: renderedAt run later rest (ctx.behind step execution)

variable {steps : List Step}

section Chains

variable {sha256Hex : String → String} {describe : ActivityError → String}
variable {maxAttempts : Nat} {jobID rowIndex : Int} {multiStep : Bool} {run : RowRun}

private theorem executeStep_stepName {stepIndex : Int} {step : Step} {ctx : RenderContext}
    {env : StepEnv}
    {execution : StepExecution}
    (executed : executeStep sha256Hex describe maxAttempts jobID rowIndex stepIndex step ctx run
      env = some execution) : execution.stepName = step.name := by
  unfold executeStep at executed
  split at executed
  · cases executed
    rfl
  · split at executed
    · cases executed
      rfl
    · split at executed
      · cases executed
        rfl
      · obtain ⟨attempts, _, rfl⟩ := Option.map_eq_some_iff.mp executed
        rfl

theorem Chain.after_cases (chain : Chain) (step : Step) (env : StepEnv)
    (execution : StepExecution) :
    (∃ message, chain.after multiStep rowIndex step env execution =
      ({ chain with executed := execution :: chain.executed, error := some message }, true)) ∨
    (step.StopsAt execution.record ∧ ∃ ended : Chain,
      chain.after multiStep rowIndex step env execution = (ended, true) ∧
      ended.executed = execution :: chain.executed ∧ ended.error = chain.error) ∨
    (¬step.StopsAt execution.record ∧ ∃ later : Chain,
      chain.after multiStep rowIndex step env execution = (later, false) ∧
      later.executed = execution :: chain.executed ∧ later.error = chain.error ∧
      later.ctx = chain.ctx.behind step execution) := by
  unfold Chain.after Step.StopsAt RenderContext.behind
  split
  · exact .inl ⟨_, rfl⟩
  · cases status : execution.record.status with
    | unresolved => exact .inr (.inl ⟨.inl rfl, _, rfl, rfl, rfl⟩)
    | succeeded =>
        refine .inr (.inr ⟨?_, _, rfl, rfl, rfl, (if_pos rfl).symm⟩)
        rintro (impossible | ⟨impossible, _⟩)
        · cases impossible
        · cases impossible
    | failed =>
        cases continues : step.continuesOnFailure with
        | false => exact .inr (.inl ⟨.inr ⟨rfl, rfl⟩, _, rfl, rfl, rfl⟩)
        | true =>
            refine .inr (.inr ⟨?_, _, rfl, rfl, rfl, (if_neg (by decide)).symm⟩)
            rintro (impossible | ⟨_, impossible⟩)
            · cases impossible
            · cases impossible

theorem renderedAt_nil (run : RowRun) (steps : List Step) (ctx : RenderContext) :
    renderedAt run [] steps ctx = [] := by
  induction steps generalizing ctx with
  | nil => rfl
  | cons step rest ih =>
      unfold renderedAt
      cases run.recorded step.name with
      | some body => exact ih _
      | none => rfl

theorem renderedAt_cons {step : Step} {execution : StepExecution}
    {executed : List StepExecution} (absent : run.recorded step.name = none)
    (ctx : RenderContext) :
    renderedAt run (execution :: executed) (step :: steps) ctx =
      (step, ctx) :: renderedAt run executed steps (ctx.behind step execution) := by
  rw [renderedAt, absent]

theorem renderedAt_skip {step : Step} {body : String}
    (executed : List StepExecution) (found : run.recorded step.name = some body)
    (ctx : RenderContext) :
    renderedAt run executed (step :: steps) ctx =
      renderedAt run executed steps (ctx.addResponse step.name body) := by
  simp only [renderedAt, found]

theorem runChain_ran (steps : List Step) :
    ∀ (stepIndex : Int) (envs : List StepEnv) (chain final : Chain), chain.error = none →
      runChain sha256Hex describe maxAttempts jobID rowIndex multiStep run stepIndex steps envs
        chain = some final →
      ∃ executed, final.executed = executed.reverse ++ chain.executed ∧
        Ran run final.error.isSome steps executed ∧
        List.Forall₂ (fun execution place => ∃ index env, executeStep sha256Hex describe
            maxAttempts jobID rowIndex index place.1 place.2 run env = some execution)
          executed (renderedAt run executed steps chain.ctx) := by
  induction steps with
  | nil =>
      intro stepIndex envs chain final unbroken ran
      cases ran
      exact ⟨[], rfl, .nil, .nil⟩
  | cons step rest ih =>
      intro stepIndex envs chain final unbroken ran
      unfold runChain at ran
      cases resumed : run.resume.bind (fun responses => responses.lookup step.name) with
      | some body =>
          rw [resumed] at ran
          obtain ⟨executed, all, shape, places⟩ := ih (stepIndex + 1) envs
            { chain with ctx := chain.ctx.addResponse step.name body } final unbroken ran
          have found : run.recorded step.name = some body := resumed
          refine ⟨executed, all, .skipped found shape, ?_⟩
          rw [renderedAt_skip executed found]
          exact places
      | none =>
          have absent : run.recorded step.name = none := resumed
          rw [resumed] at ran
          cases envs with
          | nil => cases ran
          | cons env later =>
              simp only at ran
              cases stepped : executeStep sha256Hex describe maxAttempts jobID rowIndex stepIndex
                  step chain.ctx run env with
              | none =>
                  rw [stepped] at ran
                  cases ran
              | some execution =>
                  rw [stepped] at ran
                  simp only at ran
                  have named := executeStep_stepName stepped
                  -- a chain that ends here has executed this one step
                  have alone : List.Forall₂ (fun execution place => ∃ index env, executeStep
                        sha256Hex describe maxAttempts jobID rowIndex index place.1 place.2 run
                        env = some execution)
                      [execution] (renderedAt run [execution] (step :: rest) chain.ctx) := by
                    rw [renderedAt_cons absent, renderedAt_nil]
                    exact .cons ⟨stepIndex, env, stepped⟩ .nil
                  rcases @Chain.after_cases rowIndex multiStep chain step env execution with
                    ⟨message, after⟩ | ⟨stops, ended, after, all, kept⟩ |
                    ⟨goes, next, after, all, kept, ctx⟩
                  · rw [after] at ran
                    cases ran
                    exact ⟨[execution], rfl, .lost absent named rfl, alone⟩
                  · rw [after] at ran
                    cases ran
                    exact ⟨[execution], all, .stopped absent named stops, alone⟩
                  · rw [after] at ran
                    obtain ⟨executed, newer, shape, places⟩ :=
                      ih (stepIndex + 1) later next final (kept.trans unbroken) ran
                    refine ⟨execution :: executed, ?_, .went absent named goes shape, ?_⟩
                    · rw [newer, all, List.reverse_cons, List.append_assoc]
                      rfl
                    · rw [renderedAt_cons absent, ← ctx]
                      exact .cons ⟨stepIndex, env, stepped⟩ places

theorem processOneRow_ran {row : Row} {envs : List StepEnv}
    {persist : Option String} {result : MigrationWorkflowResult} {processed : RowExecution}
    (ran : processOneRow sha256Hex describe maxAttempts jobID row steps run envs persist result =
      some processed) :
    Ran run processed.status.isNone steps processed.executed.reverse ∧
      List.Forall₂ (fun execution place => ∃ index env, executeStep sha256Hex describe
          maxAttempts jobID row.index index place.1 place.2 run env = some execution)
        processed.executed.reverse
        (renderedAt run processed.executed.reverse steps { row := row.data }) := by
  obtain ⟨chain, chained, rfl⟩ := Option.map_eq_some_iff.mp ran
  obtain ⟨executed, all, shape, places⟩ := runChain_ran steps 0 envs _ chain rfl chained
  have oldest : chain.executed.reverse = executed := by
    rw [all, List.append_nil, List.reverse_reverse]
  cases error : chain.error with
  | some message =>
      rw [error] at shape
      simp only [oldest]
      exact ⟨shape, places⟩
  | none =>
      rw [error] at shape
      simp only [oldest]
      exact ⟨shape, places⟩

def Succeeded (run : RowRun) (executed : List StepExecution) (name : String) : Prop :=
  (run.recorded name).isSome = true ∨
    ∃ execution ∈ executed, execution.stepName = name ∧ execution.record.status = .succeeded

private theorem Ran.stepName_mem {broken : Bool} {executed : List StepExecution}
    (ran : Ran run broken steps executed) :
    ∀ execution ∈ executed, execution.stepName ∈ steps.map Step.name := by
  induction ran with
  | nil =>
      intro execution impossible
      cases impossible
  | skipped _found _rest ih =>
      intro execution member
      exact List.mem_cons_of_mem _ (ih execution member)
  | lost _absent named _unrecorded =>
      intro execution member
      rw [List.mem_singleton.mp member, named]
      exact List.mem_cons_self
  | stopped _absent named _stops =>
      intro execution member
      rw [List.mem_singleton.mp member, named]
      exact List.mem_cons_self
  | went _absent named _goes _rest ih =>
      intro execution member
      rcases List.mem_cons.mp member with same | later
      · rw [same, named]
        exact List.mem_cons_self
      · exact List.mem_cons_of_mem _ (ih execution later)

/-- The responses in the context of a step: those that were there, and those of
the steps before it that succeeded. -/
structure RenderedBehind (run : RowRun) (executed : List StepExecution) (steps : List Step)
    (ctx : RenderContext) (place : Step × RenderContext) (before after : List Step) : Prop where
  split : steps = before ++ place.1 :: after
  kept : ∀ response ∈ ctx.responses, response ∈ place.2.responses
  apart : (place.2.responses.map Prod.fst).Nodup
  answered : ∀ step ∈ before, Succeeded run executed step.name →
    step.name ∈ place.2.responses.map Prod.fst

theorem addResponse_apart {ctx : RenderContext} {name : String} (body : String)
    {rest : List Step} (apart : (ctx.responses.map Prod.fst).Nodup)
    (fresh : ∀ step ∈ rest, step.name ∉ ctx.responses.map Prod.fst)
    (own : name ∉ ctx.responses.map Prod.fst) (other : name ∉ rest.map Step.name) :
    ((ctx.addResponse name body).responses.map Prod.fst).Nodup ∧
      ∀ step ∈ rest, step.name ∉ (ctx.addResponse name body).responses.map Prod.fst := by
  have names : (ctx.addResponse name body).responses.map Prod.fst =
      ctx.responses.map Prod.fst ++ [name] := by
    unfold RenderContext.addResponse
    rw [List.map_append]
    rfl
  rw [names]
  constructor
  · apply List.nodup_append.mpr
    refine ⟨apart, List.nodup_singleton name, ?_⟩
    intro present member added single same
    rw [List.mem_singleton.mp single] at same
    rw [same] at member
    exact own member
  · intro step member inside
    rcases List.mem_append.mp inside with old | new
    · exact fresh step member old
    · apply other
      rw [← List.mem_singleton.mp new]
      exact List.mem_map_of_mem member

theorem RenderedBehind.first {ctx : RenderContext} (executed : List StepExecution) (step : Step)
    (steps : List Step) (apart : (ctx.responses.map Prod.fst).Nodup) :
    RenderedBehind run executed (step :: steps) ctx (step, ctx) [] steps := by
  refine ⟨rfl, fun response present => present, apart, ?_⟩
  intro other impossible
  cases impossible

private theorem behind_grows {ctx : RenderContext} {step : Step} {execution : StepExecution}
    {response : String × String} (present : response ∈ ctx.responses) :
    response ∈ (ctx.behind step execution).responses := by
  unfold RenderContext.behind
  split
  · exact List.mem_append_left _ present
  · exact present

private theorem behind_apart {ctx : RenderContext} {step : Step}
    (execution : StepExecution) (apart : (ctx.responses.map Prod.fst).Nodup)
    (fresh : ∀ other ∈ step :: steps, other.name ∉ ctx.responses.map Prod.fst)
    (unique : step.name ∉ steps.map Step.name) :
    ((ctx.behind step execution).responses.map Prod.fst).Nodup ∧
      ∀ other ∈ steps, other.name ∉ (ctx.behind step execution).responses.map Prod.fst := by
  have freshRest : ∀ other ∈ steps, other.name ∉ ctx.responses.map Prod.fst :=
    fun other inside => fresh other (List.mem_cons_of_mem _ inside)
  unfold RenderContext.behind
  split
  · exact addResponse_apart _ apart freshRest (fresh step List.mem_cons_self) unique
  · exact ⟨apart, freshRest⟩

theorem renderedAt_behind {broken : Bool} {executed : List StepExecution}
    (ran : Ran run broken steps executed) (unique : (steps.map Step.name).Nodup) :
    ∀ ctx : RenderContext, (ctx.responses.map Prod.fst).Nodup →
      (∀ step ∈ steps, step.name ∉ ctx.responses.map Prod.fst) →
      ∀ place ∈ renderedAt run executed steps ctx,
        ∃ before after, RenderedBehind run executed steps ctx place before after := by
  induction ran with
  | nil =>
      intro ctx _apart _fresh place impossible
      cases impossible
  | @skipped step steps executed body found rest ih =>
      intro ctx apart fresh place member
      rw [List.map_cons, List.nodup_cons] at unique
      rw [renderedAt_skip executed found] at member
      obtain ⟨apartNext, freshNext⟩ := addResponse_apart body apart
        (fun other later => fresh other (List.mem_cons_of_mem _ later))
        (fresh step List.mem_cons_self) unique.1
      obtain ⟨before, after, behind⟩ := ih unique.2 _ apartNext freshNext place member
      refine ⟨step :: before, after, ?_, ?_, behind.apart, ?_⟩
      · rw [behind.split]
        rfl
      · intro response present
        exact behind.kept response (List.mem_append_left _ present)
      · intro other otherMember succeeded
        rcases List.mem_cons.mp otherMember with same | later
        · rw [same]
          exact List.mem_map_of_mem (behind.kept (step.name, body)
            (List.mem_append_right _ List.mem_cons_self))
        · exact behind.answered other later succeeded
  | @lost step steps execution absent named unrecorded =>
      intro ctx apart fresh place member
      rw [renderedAt_cons absent, renderedAt_nil] at member
      rw [List.mem_singleton.mp member]
      exact ⟨[], steps, RenderedBehind.first _ step steps apart⟩
  | @stopped step steps execution absent named stops =>
      intro ctx apart fresh place member
      rw [renderedAt_cons absent, renderedAt_nil] at member
      rw [List.mem_singleton.mp member]
      exact ⟨[], steps, RenderedBehind.first _ step steps apart⟩
  | @went step steps execution executed absent named goes rest ih =>
      intro ctx apart fresh place member
      rw [List.map_cons, List.nodup_cons] at unique
      rw [renderedAt_cons absent] at member
      rcases List.mem_cons.mp member with same | later
      · rw [same]
        exact ⟨[], steps, RenderedBehind.first _ step steps apart⟩
      · have next := behind_apart execution apart fresh unique.1
        obtain ⟨before, after, behind⟩ := ih unique.2 _ next.1 next.2 place later
        refine ⟨step :: before, after, ?_, ?_, behind.apart, ?_⟩
        · rw [behind.split]
          rfl
        · intro response present
          exact behind.kept response (behind_grows present)
        · intro other otherMember succeeded
          rcases succeeded with recorded | ⟨last, lastMember, lastNamed, status⟩
          · rcases List.mem_cons.mp otherMember with same | inside
            · rw [same, absent] at recorded
              cases recorded
            · exact behind.answered other inside (.inl recorded)
          · rcases List.mem_cons.mp otherMember with same | inside
            · -- names are unique, so the step's own execution is the one that succeeded
              rcases List.mem_cons.mp lastMember with own | foreign
              · rw [own] at status
                rw [same]
                have added : (step.name, execution.record.response.getD "") ∈
                    (ctx.behind step execution).responses := by
                  unfold RenderContext.behind
                  rw [if_pos status]
                  exact List.mem_append_right _ List.mem_cons_self
                exact List.mem_map_of_mem (behind.kept _ added)
              · exfalso
                apply unique.1
                rw [← same, ← lastNamed]
                exact rest.stepName_mem last foreign
            · rcases List.mem_cons.mp lastMember with own | foreign
              · exfalso
                apply unique.1
                rw [← named, ← own, lastNamed, behind.split]
                exact List.mem_map_of_mem (List.mem_append_left _ inside)
              · exact behind.answered other inside (.inr ⟨last, foreign, lastNamed, status⟩)

end Chains

/-! ### Histories of a row -/

/-- A run over one row. `executed` is that of `RowStore.afterRow`. -/
inductive RowAction
  | process (runID : String) (env : RowEnv) (executed : Bool)
  | retry (runID : String) (fromStart confirmNotApplied : Bool) (env : RetryRowEnv)

def rowStep (sha256Hex : String → String) (describe : ActivityError → String) (jobID : Int)
    (template : LoadTemplateOutput) (row : Row) (store : RowStore) : RowAction → Option RowStore
  | .process runID env executed =>
      (processOneRow sha256Hex describe template.maxAttempts jobID row template.steps {} env.steps
        env.persist {}).map
          (fun processed => store.afterRow runID row template.steps processed executed)
  | .retry runID fromStart confirmNotApplied env =>
      (retryPersistedRow sha256Hex describe jobID runID template store row.index fromStart
        confirmNotApplied env {}).map RowRetry.store

structure RowStore.Untouched (store : RowStore) (index : Int) : Prop where
  row : lookup StoredRow.index index store.rows = none
  steps : ∀ step ∈ store.steps, step.rowIndex ≠ index

theorem loadRowState_row (store : RowStore) (index : Int) :
    (loadRowState store index).row =
      (lookup StoredRow.index index store.rows).bind StoredRow.rowJSON := by
  unfold loadRowState
  cases lookup StoredRow.index index store.rows with
  | none => rfl
  | some row => rfl

theorem lookup_persistOutcome (rows : List StoredRow) (outcome : PersistOutcomeInput) :
    lookup StoredRow.index outcome.rowIndex (persistOutcome rows outcome) =
      some (((lookup StoredRow.index outcome.rowIndex rows).map outcome.updated).getD
        outcome.inserted) := by
  have keeps : ∀ row, (outcome.updated row).index = row.index := fun _ => rfl
  exact @lookup_upsert_self _ _ _ StoredRow.index outcome.inserted outcome.updated keeps rows

def RowStore.HoldsData (store : RowStore) (row : Row) : Prop :=
  (loadRowState store row.index).row = none ∨ (loadRowState store row.index).row = some row.data

section Histories

variable {sha256Hex : String → String} {describe : ActivityError → String} {jobID : Int}
variable {template : LoadTemplateOutput} {row : Row} {store : RowStore}

theorem RowStore.HoldsData.of_rows {other : RowStore} (holds : store.HoldsData row)
    (same : other.rows = store.rows) : other.HoldsData row := by
  unfold RowStore.HoldsData at holds ⊢
  rw [loadRowState_row] at holds ⊢
  rw [same]
  exact holds

theorem RowStore.HoldsData.own {data : Data} (holds : store.HoldsData row)
    (loaded : (loadRowState store row.index).row = some data) : data = row.data := by
  rcases holds with missing | stored
  · rw [loaded] at missing
    cases missing
  · rw [loaded] at stored
    exact Option.some.inj stored

theorem persistOutcome_holdsData {outcome : PersistOutcomeInput} {steps : List StoredStep}
    (same : outcome.rowIndex = row.index) (given : outcome.row = none ∨ outcome.row = some row.data)
    (holds : store.HoldsData row) :
    RowStore.HoldsData { rows := persistOutcome store.rows outcome, steps := steps } row := by
  have kept : storedRowJSON outcome.row = none ∨ storedRowJSON outcome.row = some row.data := by
    rcases given with missing | given
    · rw [missing]
      exact .inl rfl
    · rw [given]
      cases row.data with
      | nil => exact .inl rfl
      | cons field fields => exact .inr rfl
  unfold RowStore.HoldsData at holds ⊢
  rw [loadRowState_row] at holds ⊢
  rw [← same] at holds ⊢
  rw [lookup_persistOutcome]
  cases found : lookup StoredRow.index outcome.rowIndex store.rows with
  | none => exact kept
  | some old =>
      rw [found] at holds
      change (storedRowJSON outcome.row).or old.rowJSON = none ∨
        (storedRowJSON outcome.row).or old.rowJSON = some row.data
      rcases kept with none | some
      · rw [none]
        exact holds
      · rw [some]
        exact .inr rfl

theorem afterRow_holdsData {runID : String} {processed : RowExecution}
    {executed : Bool} (holds : store.HoldsData row) :
    (store.afterRow runID row steps processed executed).HoldsData row := by
  unfold RowStore.afterRow
  cases processed.status with
  | none => exact holds.of_rows rfl
  | some status =>
      simp only
      split
      · exact persistOutcome_holdsData rfl (.inr rfl) holds
      · exact holds.of_rows rfl

theorem rowStep_holdsData {action : RowAction} {next : RowStore} (holds : store.HoldsData row)
    (taken : rowStep sha256Hex describe jobID template row store action = some next) :
    next.HoldsData row := by
  cases action with
  | process runID env executed =>
      obtain ⟨processed, _, rfl⟩ := Option.map_eq_some_iff.mp taken
      exact afterRow_holdsData holds
  | retry runID fromStart confirmNotApplied env =>
      obtain ⟨retried, ran, rfl⟩ := Option.map_eq_some_iff.mp taken
      rcases retryPersistedRow_cases ran with ⟨message, _, rfl⟩ | ⟨_, _, _, _, stored⟩ |
        ⟨_, data, processed, loaded, _, _, _, stored⟩
      · exact holds
      · rw [stored]
        split
        · exact persistOutcome_holdsData rfl (.inl rfl) holds
        · exact holds
      · have own := holds.own loaded
        subst own
        rw [stored]
        exact afterRow_holdsData holds

theorem RowStore.Untouched.holdsData (untouched : store.Untouched row.index) :
    store.HoldsData row := by
  left
  rw [loadRowState_row, untouched.row]
  rfl

end Histories

end MigrationPlatform.Workflow
