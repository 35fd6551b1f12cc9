/-
Resuming a chain, and a run of it that was never interrupted.

Rendering reads the row and the parsed responses of the steps before. A retry
takes the responses of the recorded steps from the store, an uninterrupted run
gets them from the calls, so that the two render alike as long as the store has
kept the row's data.
-/

import MigrationPlatform.Workflow.RowRuns

namespace MigrationPlatform.Workflow

open MigrationPlatform.Connectors MigrationPlatform.Delivery

variable {Json : Type}

/-- A step of a template. Its renderings see each response as `AddResponse`
parses it. -/
structure TemplateStep (Json : Type) where
  name : String
  method : String
  hasBody : Bool
  mode : DeliveryMode
  retentionHours : Int := 0
  continuesOnFailure : Bool := false
  render : Data → List (String × Json) → Rendering

def RenderContext.parsed (parse : String → Json) (ctx : RenderContext) : List (String × Json) :=
  ctx.responses.map (fun response => (response.1, parse response.2))

def TemplateStep.toStep (parse : String → Json) (step : TemplateStep Json) : Step :=
  { name := step.name
    method := step.method
    hasBody := step.hasBody
    mode := step.mode
    retentionHours := step.retentionHours
    continuesOnFailure := step.continuesOnFailure
    render := fun ctx => step.render ctx.row (ctx.parsed parse) }

def withSteps (template : LoadTemplateOutput) (parse : String → Json)
    (steps : List (TemplateStep Json)) : LoadTemplateOutput :=
  { template with steps := steps.map (TemplateStep.toStep parse) }

structure RenderedStep where
  name : String
  rendering : Rendering
  idempotencyKey : Except String String

def renderedStep (sha256Hex : String → String) (jobID rowIndex : Int)
    (place : Step × RenderContext) : RenderedStep :=
  { name := place.1.name
    rendering := place.1.render place.2
    idempotencyKey := (place.1.render place.2).payload.map (fun payload =>
      ((stepCall jobID rowIndex 0 place.1 none).input sha256Hex payload false
        false).idempotencyKey) }

/-- The contexts of two runs that cannot be told apart by a rendering. -/
structure SameContext (parse : String → Json) (left right : RenderContext) : Prop where
  row : left.row = right.row
  responses : left.parsed parse = right.parsed parse

/-- Two runs over a row that get the same responses. What the first resumes from
the store, the second gets as the responses of those steps. -/
structure SameResponses (run : RowRun) (resumed whole : List StepExecution) : Prop where
  recorded : ∀ execution ∈ whole, ∀ body, run.recorded execution.stepName = some body →
    execution.record.status = .succeeded ∧ storedResponse execution.record.response = body
  executed : ∀ execution ∈ whole, ∀ other ∈ resumed, other.stepName = execution.stepName →
    other.record.status = execution.record.status ∧
      other.record.response = execution.record.response

variable {left right : RenderContext}

section Contexts

variable {parse : String → Json}

private theorem parse_storedResponse (null : parse "null" = parse "") (response : Option String) :
    parse (storedResponse response) = parse (response.getD "") := by
  cases response with
  | none => exact null
  | some body =>
      change parse (if body = "" then "null" else body) = parse body
      by_cases empty : body = ""
      · rw [if_pos empty, empty]
        exact null
      · rw [if_neg empty]

theorem SameContext.addResponse {first second : String}
    (same : SameContext parse left right) (name : String) (parses : parse first = parse second) :
    SameContext parse (left.addResponse name first) (right.addResponse name second) := by
  refine ⟨same.row, ?_⟩
  unfold RenderContext.parsed RenderContext.addResponse
  rw [List.map_append, List.map_append]
  have responses := same.responses
  unfold RenderContext.parsed at responses
  rw [responses, List.map_cons, List.map_cons, parses]

private theorem renderedStep_same (sha256Hex : String → String)
    (jobID rowIndex : Int) (step : TemplateStep Json) (same : SameContext parse left right) :
    renderedStep sha256Hex jobID rowIndex (step.toStep parse, left) =
      renderedStep sha256Hex jobID rowIndex (step.toStep parse, right) := by
  have rendering : (step.toStep parse).render left = (step.toStep parse).render right := by
    change step.render left.row (left.parsed parse) = step.render right.row (right.parsed parse)
    rw [same.row, same.responses]
  unfold renderedStep
  simp only [rendering]

theorem SameContext.behind {step : Step}
    {execution other : StepExecution} (same : SameContext parse left right)
    (status : other.record.status = execution.record.status)
    (response : other.record.response = execution.record.response) :
    SameContext parse (left.behind step other) (right.behind step execution) := by
  unfold RenderContext.behind
  rw [status, response]
  split
  · exact same.addResponse step.name rfl
  · exact same

end Contexts

theorem Step.stopsAt_congr {step : Step} {left right : OutcomeRecord}
    (same : left.status = right.status) : step.StopsAt left ↔ step.StopsAt right := by
  unfold Step.StopsAt
  rw [same]

theorem Step.not_stopsAt_of_succeeded {step : Step} {record : OutcomeRecord}
    (succeeded : record.status = .succeeded) : ¬step.StopsAt record := by
  rintro (unresolved | ⟨failed, _⟩)
  · rw [succeeded] at unresolved
    cases unresolved
  · rw [succeeded] at failed
    cases failed

theorem SameResponses.tail {run : RowRun} {resumed later whole rest : List StepExecution}
    (same : SameResponses run resumed whole) (fewer : ∀ other ∈ later, other ∈ resumed)
    (behind : ∀ execution ∈ rest, execution ∈ whole) : SameResponses run later rest where
  recorded := fun execution member => same.recorded execution (behind execution member)
  executed := fun execution member other among =>
    same.executed execution (behind execution member) other (fewer other among)

/-- The steps of an uninterrupted run that a resumed one has left to execute. -/
def remainingPlaces (run : RowRun) (places : List (Step × RenderContext)) :
    List (Step × RenderContext) :=
  places.filter (fun place => (run.recorded place.1.name).isNone)

theorem remainingPlaces_cons_absent {run : RowRun} {step : Step} {ctx : RenderContext}
    (places : List (Step × RenderContext)) (absent : run.recorded step.name = none) :
    remainingPlaces run ((step, ctx) :: places) = (step, ctx) :: remainingPlaces run places := by
  apply List.filter_cons_of_pos
  simp only [absent]
  rfl

theorem remainingPlaces_cons_recorded {run : RowRun} {step : Step} {ctx : RenderContext}
    {body : String} (places : List (Step × RenderContext))
    (found : run.recorded step.name = some body) :
    remainingPlaces run ((step, ctx) :: places) = remainingPlaces run places := by
  apply List.filter_cons_of_neg
  simp only [found]
  exact Bool.false_ne_true

section SideBySide

variable {parse : String → Json} {run : RowRun} {broken : Bool} {sha256Hex : String → String}
variable {jobID rowIndex : Int}

def RendersRemaining (sha256Hex : String → String) (jobID rowIndex : Int) (run : RowRun)
    (broken : Bool) (resumed whole : List (Step × RenderContext)) : Prop :=
  resumed.map (renderedStep sha256Hex jobID rowIndex) <+:
      (remainingPlaces run whole).map (renderedStep sha256Hex jobID rowIndex) ∧
    (broken = false → resumed.map (renderedStep sha256Hex jobID rowIndex) =
      (remainingPlaces run whole).map (renderedStep sha256Hex jobID rowIndex))

theorem RendersRemaining.nil :
    RendersRemaining sha256Hex jobID rowIndex run broken [] [] :=
  ⟨List.prefix_rfl, fun _ => rfl⟩

theorem RendersRemaining.cons {step : TemplateStep Json}
    {resumed whole : List (Step × RenderContext)} (same : SameContext parse left right)
    (absent : run.recorded (step.toStep parse).name = none)
    (rest : RendersRemaining sha256Hex jobID rowIndex run broken resumed whole) :
    RendersRemaining sha256Hex jobID rowIndex run broken
      ((step.toStep parse, left) :: resumed) ((step.toStep parse, right) :: whole) := by
  unfold RendersRemaining
  rw [remainingPlaces_cons_absent whole absent, List.map_cons, List.map_cons,
    renderedStep_same sha256Hex jobID rowIndex step same]
  constructor
  · exact (List.prefix_cons_inj _).mpr rest.1
  · intro recorded
    rw [rest.2 recorded]

theorem RendersRemaining.skip {step : Step} {ctx : RenderContext} {body : String}
    {resumed whole : List (Step × RenderContext)} (found : run.recorded step.name = some body)
    (rest : RendersRemaining sha256Hex jobID rowIndex run broken resumed whole) :
    RendersRemaining sha256Hex jobID rowIndex run broken resumed ((step, ctx) :: whole) := by
  unfold RendersRemaining
  rw [remainingPlaces_cons_recorded whole found]
  exact rest

theorem RendersRemaining.lost {step : TemplateStep Json}
    {whole : List (Step × RenderContext)} (same : SameContext parse left right)
    (absent : run.recorded (step.toStep parse).name = none) (unrecorded : broken = true) :
    RendersRemaining sha256Hex jobID rowIndex run broken
      [(step.toStep parse, left)] ((step.toStep parse, right) :: whole) := by
  apply RendersRemaining.cons same absent
  refine ⟨List.nil_prefix, ?_⟩
  intro recorded
  rw [recorded] at unrecorded
  cases unrecorded

theorem renderedAt_resumed (null : parse "null" = parse "") (steps : List (TemplateStep Json)) :
    ∀ (whole resumed : List StepExecution) (left right : RenderContext),
      Ran {} false (steps.map (TemplateStep.toStep parse)) whole →
      Ran run broken (steps.map (TemplateStep.toStep parse)) resumed →
      SameResponses run resumed whole → SameContext parse left right →
      RendersRemaining sha256Hex jobID rowIndex run broken
        (renderedAt run resumed (steps.map (TemplateStep.toStep parse)) left)
        (renderedAt {} whole (steps.map (TemplateStep.toStep parse)) right) := by
  induction steps with
  | nil =>
      intro whole resumed left right _whole _resumed _same _contexts
      exact .nil
  | cons step rest ih =>
      intro whole resumed left right wholeRan resumedRan same contexts
      have fresh : ({} : RowRun).recorded (step.toStep parse).name = none := rfl
      rw [List.map_cons] at wholeRan resumedRan ⊢
      cases wholeRan with
      | skipped found => cases found
      | lost _ _ unrecorded => cases unrecorded
      | @stopped _ _ execution _ named stops =>
          rw [renderedAt_cons fresh, renderedAt_nil]
          cases resumedRan with
          | skipped found resumedRest =>
              rw [← named] at found
              obtain ⟨succeeded, _⟩ := same.recorded execution List.mem_cons_self _ found
              exact absurd stops (Step.not_stopsAt_of_succeeded succeeded)
          | lost absent otherNamed unrecorded =>
              rw [renderedAt_cons absent, renderedAt_nil]
              exact .lost contexts absent unrecorded
          | stopped absent otherNamed otherStops =>
              rw [renderedAt_cons absent, renderedAt_nil]
              exact .cons contexts absent .nil
          | went absent otherNamed otherGoes resumedRest =>
              obtain ⟨status, _⟩ := same.executed execution List.mem_cons_self _
                List.mem_cons_self (otherNamed.trans named.symm)
              exact absurd ((Step.stopsAt_congr status).mpr stops) otherGoes
      | @went _ _ execution executed _ named goes wholeRest =>
          rw [renderedAt_cons fresh]
          have behind : ∀ later ∈ executed, later ∈ execution :: executed :=
            fun later member => List.mem_cons_of_mem _ member
          cases resumedRan with
          | @skipped _ _ _ body found resumedRest =>
              obtain ⟨succeeded, stored⟩ := same.recorded execution List.mem_cons_self body
                (by rw [named]; exact found)
              have parses : parse body = parse (execution.record.response.getD "") := by
                rw [← stored]
                exact parse_storedResponse null execution.record.response
              have after : SameContext parse
                  (left.addResponse (step.toStep parse).name body)
                  (right.behind (step.toStep parse) execution) := by
                unfold RenderContext.behind
                rw [if_pos succeeded]
                exact contexts.addResponse _ parses
              rw [renderedAt_skip resumed found]
              exact .skip found (ih executed resumed _ _ wholeRest resumedRest
                (same.tail (fun _ member => member) behind) after)
          | lost absent otherNamed unrecorded =>
              rw [renderedAt_cons absent, renderedAt_nil]
              exact .lost contexts absent unrecorded
          | stopped absent otherNamed otherStops =>
              obtain ⟨status, _⟩ := same.executed execution List.mem_cons_self _
                List.mem_cons_self (otherNamed.trans named.symm)
              exact absurd ((Step.stopsAt_congr status).mp otherStops) goes
          | @went _ _ other others absent otherNamed otherGoes resumedRest =>
              obtain ⟨status, response⟩ := same.executed execution List.mem_cons_self other
                List.mem_cons_self (otherNamed.trans named.symm)
              rw [renderedAt_cons absent]
              exact .cons contexts absent (ih executed others _ _ wholeRest resumedRest
                (same.tail (fun _ member => List.mem_cons_of_mem _ member) behind)
                (contexts.behind status response))

theorem remainingPlaces_eq_nil_iff {steps : List Step} {whole : List StepExecution}
    (ran : Ran {} false steps whole)
    (recorded : ∀ execution ∈ whole, ∀ body, run.recorded execution.stepName = some body →
      execution.record.status = .succeeded) (ctx : RenderContext) :
    remainingPlaces run (renderedAt {} whole steps ctx) = [] ↔
      ∀ step ∈ steps, run.recorded step.name ≠ none := by
  induction ran generalizing ctx with
  | nil => exact ⟨fun _ step member => absurd member List.not_mem_nil, fun _ => rfl⟩
  | skipped found => cases found
  | lost _ _ unrecorded => cases unrecorded
  | @stopped step rest execution fresh named stops =>
      rw [renderedAt_cons fresh, renderedAt_nil]
      cases found : run.recorded step.name with
      | none =>
          rw [remainingPlaces_cons_absent [] found]
          constructor
          · intro impossible
            cases impossible
          · intro all
            exact absurd found (all step List.mem_cons_self)
      | some body =>
          rw [← named] at found
          have succeeded := recorded execution List.mem_cons_self body found
          exact absurd stops (Step.not_stopsAt_of_succeeded succeeded)
  | @went step rest execution executed fresh named goes _ ih =>
      rw [renderedAt_cons fresh]
      cases found : run.recorded step.name with
      | none =>
          rw [remainingPlaces_cons_absent _ found]
          constructor
          · intro impossible
            cases impossible
          · intro all
            exact absurd found (all step List.mem_cons_self)
      | some body =>
          have later : ∀ other ∈ executed, ∀ body, run.recorded other.stepName = some body →
              other.record.status = .succeeded :=
            fun other member => recorded other (List.mem_cons_of_mem _ member)
          rw [remainingPlaces_cons_recorded _ found, ih later]
          constructor
          · intro all other member
            rcases List.mem_cons.mp member with rfl | among
            · rw [found]
              exact Option.some_ne_none body
            · exact all other among
          · intro all other member
            exact all other (List.mem_cons_of_mem _ member)

theorem Ran.absent {steps : List Step} {executed : List StepExecution}
    (ran : Ran run broken steps executed) :
    ∀ execution ∈ executed, run.recorded execution.stepName = none := by
  induction ran with
  | nil =>
      intro execution member
      cases member
  | skipped _ _ ih => exact ih
  | lost absent named =>
      intro execution member
      rw [List.mem_singleton.mp member, named]
      exact absent
  | stopped absent named =>
      intro execution member
      rw [List.mem_singleton.mp member, named]
      exact absent
  | went absent named _ _ ih =>
      intro execution member
      rcases List.mem_cons.mp member with rfl | among
      · rw [named]
        exact absent
      · exact ih execution among

end SideBySide

/-! ### A retry and what the store has for it -/

def RowStore.resumeRun (store : RowStore) (index : Int) (confirmNotApplied : Bool) : RowRun :=
  retryRun
    { found := true
      steps := (store.steps.filter (fun step => decide (step.rowIndex = index))).insertionSort
        (fun left right => left.stepIndex ≤ right.stepIndex) }
    false confirmNotApplied

def RowStore.RecordedSucceeded (store : RowStore) (index : Int) (name : String) : Prop :=
  ∃ step ∈ store.steps, step.rowIndex = index ∧ step.stepName = name ∧ step.status = .succeeded

theorem recorded_eq_none_iff (store : RowStore) (index : Int) (confirmNotApplied : Bool)
    (name : String) :
    (store.resumeRun index confirmNotApplied).recorded name = none ↔
      ¬store.RecordedSucceeded index name := by
  change (resumeResponses _).lookup name = none ↔ _
  unfold resumeResponses RowStore.RecordedSucceeded
  rw [List.lookup_eq_none_iff]
  constructor
  · rintro absent ⟨step, member, here, rfl, succeeded⟩
    have found := absent (step.stepName, step.responseJSON) (by
      rw [List.mem_reverse]
      apply List.mem_map.mpr
      refine ⟨step, ?_, rfl⟩
      rw [List.mem_filter, List.mem_insertionSort, List.mem_filter]
      exact ⟨⟨member, decide_eq_true here⟩, decide_eq_true succeeded⟩)
    rw [bne_self_eq_false] at found
    cases found
  · intro absent response member
    rw [List.mem_reverse] at member
    obtain ⟨step, among, rfl⟩ := List.mem_map.mp member
    rw [List.mem_filter, List.mem_insertionSort, List.mem_filter] at among
    rw [bne_iff_ne]
    intro same
    exact absent ⟨step, among.1.1, of_decide_eq_true among.1.2, same.symm,
      of_decide_eq_true among.2⟩

private theorem retryRun_of_loaded {store : RowStore} {index : Int} {data : Data}
    (loaded : (loadRowState store index).row = some data) (confirmNotApplied : Bool) :
    retryRun (loadRowState store index) false confirmNotApplied =
      store.resumeRun index confirmNotApplied := by
  unfold loadRowState at loaded ⊢
  cases found : KeyedTable.lookup StoredRow.index index store.rows with
  | none =>
      rw [found] at loaded
      cases loaded
  | some row => rfl

theorem processOneRow_status {sha256Hex : String → String} {describe : ActivityError → String}
    {maxAttempts : Nat} {jobID : Int} {row : Row} {steps : List Step} {run : RowRun}
    {envs : List StepEnv} {persist : Option String} {result : MigrationWorkflowResult}
    {processed : RowExecution}
    (ran : processOneRow sha256Hex describe maxAttempts jobID row steps run envs persist result =
      some processed) (completed : processed.error = none) : processed.status.isNone = false := by
  obtain ⟨chain, _, rfl⟩ := Option.map_eq_some_iff.mp ran
  cases error : chain.error with
  | some message =>
      simp only [error] at completed
      cases completed
  | none => rfl

section Resumed

variable {sha256Hex : String → String} {describe : ActivityError → String} {jobID : Int}
variable {row : Row} {store : RowStore} {confirmNotApplied : Bool} {retried : RowRetry}

private theorem retryPersistedRow_resumed {runID : String} {template : LoadTemplateOutput}
    {env : RetryRowEnv} {result : MigrationWorkflowResult} (holds : store.HoldsData row)
    (ran : retryPersistedRow sha256Hex describe jobID runID template store row.index false
      confirmNotApplied env result = some retried) :
    (retried.executed = [] ∧
      (retried.error = none → (loadRowState store row.index).row = none)) ∨
    ((loadRowState store row.index).row = some row.data ∧ ∃ processed,
      processOneRow sha256Hex describe template.maxAttempts jobID row template.steps
        (store.resumeRun row.index confirmNotApplied) env.row.steps env.row.persist result =
          some processed ∧
      retried.executed = processed.executed ∧ retried.error = processed.error) := by
  rcases retryPersistedRow_cases ran with ⟨message, _, rfl⟩ | ⟨_, missing, nothing, _, _⟩ |
    ⟨_, data, processed, loaded, processing, executed, error, _⟩
  · left
    constructor
    · rfl
    · intro impossible
      cases impossible
  · exact .inl ⟨nothing, fun _ => missing⟩
  · have own := holds.own loaded
    subst own
    rw [retryRun_of_loaded loaded] at processing
    exact .inr ⟨loaded, processed, processing, executed, error⟩

def renderedBy (sha256Hex : String → String) (jobID : Int) (row : Row) (steps : List Step)
    (run : RowRun) (executed : List StepExecution) : List RenderedStep :=
  (renderedAt run executed.reverse steps { row := row.data }).map
    (renderedStep sha256Hex jobID row.index)

def remainingBy (sha256Hex : String → String) (jobID : Int) (row : Row) (steps : List Step)
    (run : RowRun) (whole : List StepExecution) : List RenderedStep :=
  (remainingPlaces run (renderedAt {} whole.reverse steps { row := row.data })).map
    (renderedStep sha256Hex jobID row.index)

/-- A retry of a row behind some history of it, and beside it a run over the row
that nothing interrupted and that got the same responses. -/
structure ResumedRow (sha256Hex : String → String) (describe : ActivityError → String)
    (jobID : Int) (template : LoadTemplateOutput) (row : Row) (store : RowStore)
    (confirmNotApplied : Bool) (retried : RowRetry) (whole : RowExecution) : Prop where
  history : ∃ initial actions, initial.Untouched row.index ∧
    GuardedRuns.run (rowStep sha256Hex describe jobID template row) initial actions = some store
  retry : ∃ runID env result, retryPersistedRow sha256Hex describe jobID runID template store
    row.index false confirmNotApplied env result = some retried
  uninterrupted : ∃ envs persist result, processOneRow sha256Hex describe template.maxAttempts
    jobID row template.steps {} envs persist result = some whole
  completed : whole.error = none
  same : SameResponses (store.resumeRun row.index confirmNotApplied) retried.executed
    whole.executed

theorem ResumedRow.holdsData {template : LoadTemplateOutput} {whole : RowExecution}
    (resumed : ResumedRow sha256Hex describe jobID template row store confirmNotApplied retried
      whole) : store.HoldsData row := by
  obtain ⟨initial, actions, untouched, ran⟩ := resumed.history
  have preserved : ∀ before action next, before.HoldsData row →
      rowStep sha256Hex describe jobID template row before action = some next →
      next.HoldsData row :=
    fun _ _ _ holds taken => rowStep_holdsData holds taken
  exact GuardedRuns.invariant_of_run preserved actions initial store untouched.holdsData ran

private theorem ResumedRow.same_reverse {template : LoadTemplateOutput} {whole : RowExecution}
    (resumed : ResumedRow sha256Hex describe jobID template row store confirmNotApplied retried
      whole) :
    SameResponses (store.resumeRun row.index confirmNotApplied) retried.executed.reverse
      whole.executed.reverse :=
  resumed.same.tail (fun _ member => List.mem_reverse.mp member)
    (fun _ member => List.mem_reverse.mp member)

theorem resumed_chain_renders_iff {parse : String → Json} (null : parse "null" = parse "")
    (template : LoadTemplateOutput) (steps : List (TemplateStep Json)) {whole : RowExecution}
    (resumed : ResumedRow sha256Hex describe jobID (withSteps template parse steps) row store
      confirmNotApplied retried whole) :
    let chain := (withSteps template parse steps).steps
    let run := store.resumeRun row.index confirmNotApplied
    let rendered := renderedBy sha256Hex jobID row chain run retried.executed
    let remaining := remainingBy sha256Hex jobID row chain run whole.executed
    (∀ execution ∈ retried.executed,
      ¬store.RecordedSucceeded row.index execution.stepName) ∧
    List.Forall₂ (fun execution place => ∃ index env, executeStep sha256Hex describe
        template.maxAttempts jobID row.index index place.1 place.2 run env = some execution)
      retried.executed.reverse
      (renderedAt run retried.executed.reverse chain { row := row.data }) ∧
    rendered <+: remaining ∧
    (retried.error = none → (rendered = remaining ↔
      (loadRowState store row.index).row = some row.data ∨
      ∀ step ∈ steps, store.RecordedSucceeded row.index step.name)) := by
  intro chain run rendered remaining
  obtain ⟨runID, env, result, retrying⟩ := resumed.retry
  obtain ⟨envs, persist, total, wholeRun⟩ := resumed.uninterrupted
  have same := resumed.same_reverse
  have wholeRan := (processOneRow_ran wholeRun).1
  rw [processOneRow_status wholeRun resumed.completed] at wholeRan
  rcases retryPersistedRow_resumed resumed.holdsData retrying with
    ⟨nothing, missing⟩ | ⟨stored, processed, processing, executed, error⟩
  · have noneRendered : rendered = [] := by
      change List.map _ (renderedAt run retried.executed.reverse chain _) = []
      rw [nothing, List.reverse_nil, renderedAt_nil, List.map_nil]
    have leftOver : remaining = [] ↔
        ∀ step ∈ steps, store.RecordedSucceeded row.index step.name := by
      change List.map _ (remainingPlaces run _) = [] ↔ _
      rw [List.map_eq_nil_iff, remainingPlaces_eq_nil_iff wholeRan
        (fun execution member body found => (same.recorded execution member body found).1)]
      change (∀ step ∈ steps.map (TemplateStep.toStep parse), run.recorded step.name ≠ none) ↔ _
      rw [List.forall_mem_map]
      apply forall₂_congr
      intro step _member
      change ¬run.recorded step.name = none ↔ _
      rw [recorded_eq_none_iff, not_not]
    rw [noneRendered, nothing, List.reverse_nil, renderedAt_nil]
    refine ⟨?_, .nil, List.nil_prefix, ?_⟩
    · intro execution member
      cases member
    · intro ended
      rw [eq_comm, leftOver, missing ended]
      constructor
      · exact .inr
      · rintro (impossible | all)
        · cases impossible
        · exact all
  · obtain ⟨resumedRan, places⟩ := processOneRow_ran processing
    rw [← executed] at resumedRan places
    have sides : RendersRemaining sha256Hex jobID row.index run processed.status.isNone
        (renderedAt run retried.executed.reverse chain { row := row.data })
        (renderedAt {} whole.executed.reverse chain { row := row.data }) :=
      renderedAt_resumed null steps _ _ _ _ wholeRan resumedRan same ⟨rfl, rfl⟩
    obtain ⟨beginning, all⟩ := sides
    refine ⟨?_, places, beginning, ?_⟩
    · intro execution member
      apply (recorded_eq_none_iff store row.index confirmNotApplied execution.stepName).mp
      exact resumedRan.absent execution (List.mem_reverse.mpr member)
    · intro ended
      rw [error] at ended
      constructor
      · intro _equal
        exact .inl stored
      · intro _stored
        exact all (processOneRow_status processing ended)

end Resumed

def responseID (text : String) : Option String :=
  if text = "\x7b\"id\":\"12\"\x7d" then some "12" else none

def accountStep : TemplateStep (Option String) :=
  { name := "account", method := "POST", hasBody := true, mode := .idempotent
    render := fun _ _ =>
      { payload := .ok "\x7b\"n\":1\x7d", destination := .ok "https://api/accounts" } }

def contactStep : TemplateStep (Option String) :=
  { name := "contact", method := "POST", hasBody := true, mode := .idempotent
    render := fun _ responses =>
      { payload := .ok "\x7b\"n\":1\x7d"
        destination :=
          match responses.lookup "account" with
          | some (some id) => .ok ("https://api/accounts/" ++ id ++ "/contacts")
          | _ => .error "JSONPath \"$.id\" matched nothing in response of step \"account\"" } }

def chainSha256 (text : String) : String :=
  if text = "\x7b\"n\":1\x7d" then
    "2bfd14f43d17fc7cea24e0917a8879b4b2f880b8baeec1b9d90fbaad655e71bd"
  else if text = "7-3-account-\x7b\"n\":1\x7d" then
    "77db549e84597fa1eef3bd2dae170120da3e5e787b839333e113626988354e08"
  else if text = "7-3-contact-\x7b\"n\":1\x7d" then
    "ff3588b800e2376732eac7434de9d89216b9e908fe4005ebdb680ff69384878f"
  else ""

def createdAccount : StepEnv :=
  { attempts := [{ answered "run:1:1" none 201 with
      send := { status := 201, body := "\x7b\"id\":\"12\"\x7d", wrote := true } }] }

/-- The ledger cannot be reached, so that nothing is sent. -/
def unsentContact : StepEnv :=
  { attempts := [{ answered "run:2:1" none 201 with begin := .error "connection refused" }] }

def createdContact : StepEnv :=
  { attempts := [answered "run:3:1" none 201] }

def accountTemplate : LoadTemplateOutput :=
  withSteps { version := 1, maxAttempts := 1, steps := [] } responseID [accountStep, contactStep]

def namedRow : Row := { index := 3, data := [("name", .text "Ada")] }

def emptyRow : Row := { index := 3, data := [] }

def interrupted : List RowAction :=
  [.process "first" { steps := [createdAccount, unsentContact] } true]

theorem untouched_of_nothing (index : Int) : RowStore.Untouched {} index where
  row := rfl
  steps := fun _ member => absurd member List.not_mem_nil

theorem resumed_contact_renders :
    ∃ store retried whole,
      ResumedRow chainSha256 describeError 7 accountTemplate namedRow store false retried whole ∧
      retried.error = none ∧ store.RecordedSucceeded 3 "account" ∧
      renderedBy chainSha256 7 namedRow accountTemplate.steps (store.resumeRun 3 false)
          retried.executed =
        remainingBy chainSha256 7 namedRow accountTemplate.steps (store.resumeRun 3 false)
          whole.executed ∧
      (retried.executed.map StepExecution.stepName) = ["contact"] := by
  have resumed : ResumedRow chainSha256 describeError 7 accountTemplate namedRow _ false _ _ :=
    { history := ⟨{}, interrupted, untouched_of_nothing 3, rfl⟩
      retry := ⟨"second", { row := { steps := [createdContact] } }, {}, rfl⟩
      uninterrupted := ⟨[createdAccount, createdContact], none, {}, rfl⟩
      completed := rfl
      same := by
        constructor
        · intro execution member body found
          rcases List.mem_cons.mp member with rfl | member
          · cases found
          · cases List.mem_singleton.mp member
            cases found
            exact ⟨rfl, rfl⟩
        · intro execution member other among named
          cases List.mem_singleton.mp among
          rcases List.mem_cons.mp member with rfl | member
          · exact ⟨rfl, rfl⟩
          · cases List.mem_singleton.mp member
            exact absurd named (by decide) }
  refine ⟨_, _, _, resumed, rfl, ⟨_, List.mem_cons_self, rfl, rfl, rfl⟩, ?_, rfl⟩
  exact ((resumed_chain_renders_iff rfl { version := 1, maxAttempts := 1, steps := [] }
    [accountStep, contactStep] resumed).2.2.2 rfl).mpr (.inl rfl)

/-- A row without fields is stored as a missing one, so that its retry fails
before it renders the step that is left. -/
theorem empty_row_not_resumed :
    ∃ store retried whole,
      ResumedRow chainSha256 describeError 7 accountTemplate emptyRow store false retried whole ∧
      retried.error = none ∧ ¬store.RecordedSucceeded 3 "contact" ∧
      renderedBy chainSha256 7 emptyRow accountTemplate.steps (store.resumeRun 3 false)
          retried.executed = [] ∧
      renderedBy chainSha256 7 emptyRow accountTemplate.steps (store.resumeRun 3 false)
          retried.executed ≠
        remainingBy chainSha256 7 emptyRow accountTemplate.steps (store.resumeRun 3 false)
          whole.executed := by
  have resumed : ResumedRow chainSha256 describeError 7 accountTemplate emptyRow _ false _ _ :=
    { history := ⟨{}, interrupted, untouched_of_nothing 3, rfl⟩
      retry := ⟨"second", { row := { steps := [] } }, {}, rfl⟩
      uninterrupted := ⟨[createdAccount, createdContact], none, {}, rfl⟩
      completed := rfl
      same := by
        constructor
        · intro execution member body found
          rcases List.mem_cons.mp member with rfl | member
          · cases found
          · cases List.mem_singleton.mp member
            cases found
            exact ⟨rfl, rfl⟩
        · intro execution member other among
          cases among }
  refine ⟨_, _, _, resumed, rfl, ?_, rfl, ?_⟩
  · exact (recorded_eq_none_iff _ 3 false "contact").mp rfl
  · intro equal
    cases equal

end MigrationPlatform.Workflow
