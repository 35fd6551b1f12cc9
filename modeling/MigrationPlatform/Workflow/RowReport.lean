/-
What a processed row reports of its steps.

The status is the join of the statuses of the executed steps, while the error
is that of the last executed step alone. `failed_row_says_why_iff` says for
which chains the two fit together.
-/

import MigrationPlatform.Workflow.RowResult

namespace MigrationPlatform.Workflow

open MigrationPlatform.Connectors MigrationPlatform.Delivery KeyedTable

/-- Unresolved if some status is, else failed if some status is. -/
def joinStatus (statuses : List StepStatus) : StepStatus :=
  if .unresolved ∈ statuses then .unresolved
  else if .failed ∈ statuses then .failed
  else .succeeded

def stepStatuses (executed : List StepExecution) : List StepStatus :=
  executed.map (fun execution => execution.record.status)

theorem joinStatus_succeeded_iff (executed : List StepExecution) :
    joinStatus (stepStatuses executed) = .succeeded ↔
      ∀ execution ∈ executed, execution.record.status = .succeeded := by
  unfold joinStatus
  constructor
  · intro joined execution member
    have among : execution.record.status ∈ stepStatuses executed := List.mem_map_of_mem member
    cases status : execution.record.status with
    | succeeded => rfl
    | unresolved =>
        rw [status] at among
        rw [if_pos among] at joined
        cases joined
    | failed =>
        rw [status] at among
        rw [if_pos among] at joined
        split at joined
        · cases joined
        · cases joined
  · intro all
    have only : ∀ status ∈ stepStatuses executed, status = .succeeded := by
      intro status among
      obtain ⟨execution, member, same⟩ := List.mem_map.mp among
      rw [← same]
      exact all execution member
    have noUnresolved : .unresolved ∉ stepStatuses executed := by
      intro among
      cases only _ among
    have noFailed : .failed ∉ stepStatuses executed := by
      intro among
      cases only _ among
    rw [if_neg noUnresolved, if_neg noFailed]

section Chains

variable {sha256Hex : String → String} {describe : ActivityError → String}
variable {maxAttempts : Nat} {jobID rowIndex : Int} {multiStep : Bool} {run : RowRun}

/-- The flags of the loop say what was executed, unless a step was not recorded. -/
structure Chain.Joined (chain : Chain) : Prop where
  unresolved : chain.unresolved = true ↔ .unresolved ∈ stepStatuses chain.executed
  failed : chain.anyFailed = true ↔ .failed ∈ stepStatuses chain.executed

theorem Chain.Joined.after {chain : Chain} (joined : chain.error = none → chain.Joined)
    (step : Step) (env : StepEnv) (execution : StepExecution)
    (unbroken : (chain.after multiStep rowIndex step env execution).1.error = none) :
    (chain.after multiStep rowIndex step env execution).1.Joined := by
  unfold Chain.after at unbroken ⊢
  split at unbroken
  · cases unbroken
  · have statuses : ∀ status : StepStatus,
        status ∈ stepStatuses (execution :: chain.executed) ↔
          status = execution.record.status ∨ status ∈ stepStatuses chain.executed :=
      fun status => List.mem_cons
    split at unbroken
    · rename_i status
      have before := joined unbroken
      refine ⟨⟨fun _ => (statuses _).mpr (.inl status.symm), fun _ => rfl⟩, ?_⟩
      rw [statuses, status, before.failed]
      exact ⟨.inr, fun among => among.resolve_left (fun impossible => nomatch impossible)⟩
    · rename_i status
      have before := joined unbroken
      refine ⟨?_, ⟨fun _ => (statuses _).mpr (.inl status.symm), fun _ => rfl⟩⟩
      rw [statuses, status, before.unresolved]
      exact ⟨.inr, fun among => among.resolve_left (fun impossible => nomatch impossible)⟩
    · rename_i status
      have before := joined unbroken
      constructor
      · rw [statuses, status, before.unresolved]
        exact ⟨.inr, fun among => among.resolve_left (fun impossible => nomatch impossible)⟩
      · rw [statuses, status, before.failed]
        exact ⟨.inr, fun among => among.resolve_left (fun impossible => nomatch impossible)⟩

private theorem runChain_joined (steps : List Step) (stepIndex : Int) (envs : List StepEnv)
    (row : Data) (final : Chain)
    (ran : runChain sha256Hex describe maxAttempts jobID rowIndex multiStep run stepIndex steps
      envs { ctx := { row := row } } = some final) (unbroken : final.error = none) :
    final.Joined := by
  refine runChain_invariant (fun _ => True) (fun chain => chain.error = none → chain.Joined)
    ?_ ?_ steps stepIndex envs _ (fun _ _ => trivial) ?_ ran unbroken
  · intro chain step body joined clean
    exact ⟨(joined clean).unresolved, (joined clean).failed⟩
  · intro index chain step env execution _allowed joined _executed clean
    exact Chain.Joined.after joined step env execution clean
  · intro _clean
    constructor
    · exact iff_of_false Bool.false_ne_true List.not_mem_nil
    · exact iff_of_false Bool.false_ne_true List.not_mem_nil

theorem Chain.Joined.status {chain : Chain} (joined : chain.Joined) :
    chain.status = joinStatus (stepStatuses chain.executed) := by
  unfold Chain.status joinStatus
  simp only [joined.unresolved, joined.failed]

private theorem processOneRow_recorded {row : Row} {steps : List Step} {envs : List StepEnv}
    {persist : Option String} {result : MigrationWorkflowResult} {processed : RowExecution}
    {status : StepStatus}
    (ran : processOneRow sha256Hex describe maxAttempts jobID row steps run envs persist result =
      some processed) (recorded : processed.status = some status) :
    status = joinStatus (stepStatuses processed.executed) ∧
      processed.result = result.count status := by
  obtain ⟨chain, chained, rfl⟩ := Option.map_eq_some_iff.mp ran
  cases error : chain.error with
  | some message =>
      rw [error] at recorded
      cases recorded
  | none =>
      rw [error] at recorded
      cases recorded
      have joined := runChain_joined steps 0 envs row.data chain chained error
      exact ⟨joined.status, rfl⟩

end Chains

/-- Go's errors have a text: the rendering of a step fails with one, and so does
an activity. -/
structure ErrorsSpeak (describe : ActivityError → String) (steps : List Step) : Prop where
  described : ∀ err, describe err ≠ ""
  payload : ∀ step ∈ steps, ∀ ctx, (step.render ctx).payload ≠ .error ""
  destination : ∀ step ∈ steps, ∀ ctx, (step.render ctx).destination ≠ .error ""

private theorem decideAttempt_reason {s : OpSnapshot} {intent : AttemptIntent}
    {decision : AttemptDecision} (decided : decideAttempt s intent = decision)
    (unresolved : decision.kind = .unresolved) : decision.reason ≠ "" := by
  unfold decideAttempt at decided
  repeat' split at decided
  all_goals subst decided
  all_goals first
    | exact absurd unresolved (by decide)
    | exact append_ne_empty (append_ne_empty (by decide) _) _
    | exact append_ne_empty (by decide) _
    | decide

variable {output : CallEndpointOutput}

theorem closeAttempt_error {mode : DeliveryMode} {completion : Completion}
    {reply : Nat → FinishReply}
    (closed : closeAttempt mode completion reply = .returned output none)
    (unresolved : output.outcome = .unresolved) : output.error ≠ "" := by
  unfold closeAttempt at closed
  obtain ⟨here, finished⟩ := AttemptEnd.returned.inj closed
  subst here
  cases replied : finishWithRetry reply with
  | some message =>
      rw [replied] at finished
      cases completion with
      | _ => cases finished
  | none =>
      rw [replied] at finished unresolved
      cases completion with
      | unknown result =>
          unfold Completion.returns at finished unresolved ⊢
          simp only at finished unresolved ⊢
          split at finished
          · rename_i manual
            rw [if_pos manual]
            unfold manualMessage unknownMessage
            exact append_ne_empty (append_ne_empty (by decide) _) _
          · cases finished
      | lookupFailed message => cases finished
      | notSent result => cases finished
      | _ => cases unresolved

theorem sendRequest_error {mode : DeliveryMode} {env : AttemptEnv}
    (sent : (sendRequest mode env).ends = .returned output none)
    (unresolved : output.outcome = .unresolved) : output.error ≠ "" := by
  unfold sendRequest at sent
  split at sent
  · cases sent
  · simp only at sent
    split at sent
    · cases sent
    · exact closeAttempt_error sent unresolved

private theorem proceed_error {mode : DeliveryMode} {env : AttemptEnv} {now : Time}
    {begun : BeginResult}
    (reasoned : begun.decision.kind = .unresolved → begun.decision.reason ≠ "")
    (proceeded : (proceed mode env now begun).ends = .returned output none)
    (unresolved : output.outcome = .unresolved) : output.error ≠ "" := by
  unfold proceed at proceeded
  cases kind : begun.decision.kind with
  | busy =>
      simp only [afterBegin, kind] at proceeded
      cases proceeded
  | replay =>
      simp only [afterBegin, kind] at proceeded
      cases proceeded
      cases unresolved
  | unresolved =>
      simp only [afterBegin, kind] at proceeded
      cases proceeded
      exact reasoned kind
  | send =>
      simp only [afterBegin, kind] at proceeded
      exact sendRequest_error proceeded unresolved
  | lookupThenSend =>
      simp only [afterBegin, kind] at proceeded
      split at proceeded
      · exact closeAttempt_error proceeded unresolved
      · exact sendRequest_error proceeded unresolved

private theorem callEndpoint_error {sha256Hex : String → String} {input : CallEndpointInput}
    {env : AttemptEnv} (called : (callEndpoint sha256Hex input env).ends = .returned output none)
    (unresolved : output.outcome = .unresolved) : output.error ≠ "" := by
  unfold callEndpoint at called
  split at called
  · cases called
  · split at called
    · cases called
    · split at called
      · cases called
      · split at called
        · cases called
        · exact proceed_error (fun kind => decideAttempt_reason rfl kind) called unresolved

private theorem stepStatus_unresolved (unresolved : stepStatus (.completed output) = .unresolved) :
    output.outcome = .unresolved := by
  by_contra other
  have status : (if output.succeeded = false then StepStatus.failed else .succeeded) =
      .unresolved := (if_neg other).symm.trans unresolved
  split at status
  · cases status
  · cases status

section Texts

variable {sha256Hex : String → String} {describe : ActivityError → String}

private theorem callRecord_lastError {url payload : String} {result : ActivityResult}
    (described : ∀ err, describe err ≠ "")
    (reasoned : ∀ output, result = .completed output → output.outcome = .unresolved →
      output.error ≠ "")
    (unfinished : (callRecord describe url payload result).status ≠ .succeeded) :
    (callRecord describe url payload result).lastError ≠ "" := by
  cases result with
  | failed err => exact described err
  | completed output =>
      unfold callRecord at unfinished ⊢
      simp only at unfinished ⊢
      cases status : stepStatus (.completed output) with
      | succeeded => exact absurd status unfinished
      | unresolved =>
          exact reasoned output rfl (stepStatus_unresolved status)
      | failed =>
          simp only
          split
          · exact append_ne_empty (by decide) _
          · rename_i given
            exact given

theorem executeStep_lastError {maxAttempts : Nat} {jobID rowIndex stepIndex : Int} {step : Step}
    {ctx : RenderContext} {run : RowRun} {env : StepEnv} {execution : StepExecution}
    (described : ∀ err, describe err ≠ "") (payload : (step.render ctx).payload ≠ .error "")
    (destination : (step.render ctx).destination ≠ .error "")
    (executed : executeStep sha256Hex describe maxAttempts jobID rowIndex stepIndex step ctx run
      env = some execution) (unfinished : execution.record.status ≠ .succeeded) :
    execution.record.lastError ≠ "" := by
  unfold executeStep at executed
  split at executed
  · rename_i message found
    cases executed
    intro empty
    rw [found, show message = "" from empty] at payload
    exact payload rfl
  · split at executed
    · rename_i message found
      cases executed
      intro empty
      rw [found, show message = "" from empty] at destination
      exact destination rfl
    · split at executed
      · cases executed
        exact append_ne_empty (by decide) _
      · obtain ⟨attempts, _, rfl⟩ := Option.map_eq_some_iff.mp executed
        apply callRecord_lastError described _ unfinished
        intro output completed
        exact callEndpoint_error (Attempts.result_completed completed)

end Texts

/-! ### The report of a row -/

/-- The text names the step. A chain of one step has no other to name: there the
text is the error of that step. -/
def StepExecution.NamedBy (execution : StepExecution) (multiStep : Bool) (text : String) : Prop :=
  if multiStep = true then
    text = "step " ++ execution.stepName.quote ++ ": " ++ execution.record.lastError
  else text = execution.record.lastError

structure SaysWhy (multiStep : Bool) (executed : List StepExecution) (text : String) : Prop where
  given : text ≠ ""
  named : ∃ execution ∈ executed, execution.record.status ≠ .succeeded ∧
    execution.NamedBy multiStep text

/-- The report of a row that was recorded with `status`. `order` says which
steps were executed, in which order and where the chain stopped. -/
structure RowReported (run : RowRun) (runID : String) (row : Row) (steps : List Step)
    (result : MigrationWorkflowResult) (processed : RowExecution) (status : StepStatus) :
    Prop where
  order : Ran run false steps processed.executed.reverse
  joined : status = joinStatus (stepStatuses processed.executed)
  counted : processed.result = result.count status
  stored : ∀ rows : List StoredRow, ∃ stored,
    lookup StoredRow.index row.index (persistOutcome rows
      (rowOutcome runID row (decide (1 < steps.length)) processed.executed status)) =
        some stored ∧
    stored.status = status ∧
    (status ≠ .succeeded → ∃ text, stored.lastError = some text ∧
      SaysWhy (decide (1 < steps.length)) processed.executed text)

def NotEndedBySuccess (executed : List StepExecution) : Prop :=
  ∀ last ∈ executed.head?, last.record.status = .succeeded →
    ∀ execution ∈ executed, execution.record.status = .succeeded

private theorem StepExecution.rowError_ne_empty {execution : StepExecution} (multiStep : Bool)
    (given : execution.record.lastError ≠ "") (unfinished : execution.record.status ≠ .succeeded) :
    execution.rowError multiStep ≠ "" ∧ execution.NamedBy multiStep (execution.rowError multiStep) := by
  unfold StepExecution.rowError StepExecution.NamedBy
  rw [if_neg unfinished]
  split
  · exact ⟨append_ne_empty (append_ne_empty (append_ne_empty (by decide) _) _) _, rfl⟩
  · exact ⟨given, rfl⟩

theorem lookup_rowOutcome_lastError (rows : List StoredRow) (runID : String) (row : Row)
    (multiStep : Bool) (executed : List StepExecution) (status : StepStatus) :
    ∃ stored, lookup StoredRow.index row.index (persistOutcome rows
        (rowOutcome runID row multiStep executed status)) = some stored ∧
      stored.status = status ∧
      stored.lastError = nullIf (rowOutcome runID row multiStep executed status).lastError := by
  refine ⟨_, lookup_persistOutcome rows (rowOutcome runID row multiStep executed status), ?_⟩
  cases lookup StoredRow.index _ rows with
  | none => exact ⟨rfl, rfl⟩
  | some old => exact ⟨rfl, rfl⟩

section Reports

variable {sha256Hex : String → String} {describe : ActivityError → String}
variable {maxAttempts : Nat} {jobID : Int} {row : Row} {steps : List Step} {run : RowRun}
variable {envs : List StepEnv} {persist : Option String} {result : MigrationWorkflowResult}
variable {processed : RowExecution} {status : StepStatus}

private theorem renderedAt_step_mem (steps : List Step) :
    ∀ (executed : List StepExecution) (ctx : RenderContext),
      ∀ place ∈ renderedAt run executed steps ctx, place.1 ∈ steps := by
  induction steps with
  | nil =>
      intro executed ctx place member
      cases executed with
      | nil => cases member
      | cons execution later => cases member
  | cons step rest ih =>
      intro executed ctx place member
      unfold renderedAt at member
      split at member
      · exact List.mem_cons_of_mem _ (ih _ _ place member)
      · cases executed with
        | nil => cases member
        | cons execution later =>
            rcases List.mem_cons.mp member with same | behind
            · rw [same]
              exact List.mem_cons_self
            · exact List.mem_cons_of_mem _ (ih _ _ place behind)

private theorem exists_place {Executes : StepExecution → Step × RenderContext → Prop}
    {executed : List StepExecution} {places : List (Step × RenderContext)}
    (all : List.Forall₂ Executes executed places) :
    ∀ execution ∈ executed, ∃ place ∈ places, Executes execution place := by
  induction all with
  | nil =>
      intro execution impossible
      cases impossible
  | cons here _rest ih =>
      intro execution member
      rcases List.mem_cons.mp member with same | later
      · rw [same]
        exact ⟨_, List.mem_cons_self, here⟩
      · obtain ⟨place, among, executes⟩ := ih execution later
        exact ⟨place, List.mem_cons_of_mem _ among, executes⟩

private theorem processOneRow_lastError (speak : ErrorsSpeak describe steps)
    (ran : processOneRow sha256Hex describe maxAttempts jobID row steps run envs persist result =
      some processed) :
    ∀ execution ∈ processed.executed, execution.record.status ≠ .succeeded →
      execution.record.lastError ≠ "" := by
  intro execution member unfinished
  obtain ⟨place, among, index, env, executed⟩ := exists_place (processOneRow_ran ran).2 execution
    (List.mem_reverse.mpr member)
  have inside := renderedAt_step_mem steps _ _ place among
  exact executeStep_lastError speak.described (speak.payload _ inside _)
    (speak.destination _ inside _) executed unfinished

theorem failed_row_says_why_iff (runID : String) (speak : ErrorsSpeak describe steps)
    (ran : processOneRow sha256Hex describe maxAttempts jobID row steps run envs persist result =
      some processed) (recorded : processed.status = some status) :
    RowReported run runID row steps result processed status ↔
      NotEndedBySuccess processed.executed := by
  obtain ⟨joined, counted⟩ := processOneRow_recorded ran recorded
  constructor
  · intro reported last newest done
    by_contra missed
    -- the row failed, but the text it records is that of the step that succeeded
    have failed : status ≠ .succeeded := by
      intro succeeded
      exact missed ((joinStatus_succeeded_iff _).mp (joined.symm.trans succeeded))
    obtain ⟨stored, found, _, explained⟩ := reported.stored []
    obtain ⟨text, recordedText, _⟩ := explained failed
    obtain ⟨kept, keptFound, _, keptText⟩ := lookup_rowOutcome_lastError [] runID row
      (decide (1 < steps.length)) processed.executed status
    cases found.symm.trans keptFound
    rw [keptText] at recordedText
    have empty : (rowOutcome runID row (decide (1 < steps.length)) processed.executed
        status).lastError = "" := by
      unfold rowOutcome
      rw [show processed.executed.head? = some last from newest]
      exact if_pos done
    rw [empty] at recordedText
    cases recordedText
  · intro ends
    refine ⟨?_, joined, counted, ?_⟩
    · have order := (processOneRow_ran ran).1
      rw [recorded] at order
      exact order
    · intro rows
      obtain ⟨stored, found, itsStatus, text⟩ := lookup_rowOutcome_lastError rows runID row
        (decide (1 < steps.length)) processed.executed status
      refine ⟨stored, found, itsStatus, ?_⟩
      intro failed
      cases all : processed.executed with
      | nil =>
          rw [all] at joined
          exact absurd joined failed
      | cons last earlier =>
          have unfinished : last.record.status ≠ .succeeded := by
            intro done
            apply failed
            rw [joined, joinStatus_succeeded_iff]
            exact ends last (by rw [all]; rfl) done
          have given := processOneRow_lastError speak ran last
            (by rw [all]; exact List.mem_cons_self) unfinished
          obtain ⟨spoken, names⟩ := StepExecution.rowError_ne_empty (decide (1 < steps.length))
            given unfinished
          refine ⟨last.rowError (decide (1 < steps.length)), ?_, spoken, last,
            List.mem_cons_self, unfinished, names⟩
          rw [text, all]
          exact if_neg spoken

end Reports

def activityError (err : ActivityError) : String :=
  "activity error (type: CallEndpoint): " ++ describeError err

theorem activityError_ne_empty (err : ActivityError) : activityError err ≠ "" :=
  append_ne_empty (by decide) _

private theorem accountTemplate_speaks : ErrorsSpeak activityError accountTemplate.steps where
  described := activityError_ne_empty
  payload := by
    intro step member ctx
    obtain ⟨template, among, rfl⟩ := List.mem_map.mp member
    rcases List.mem_cons.mp among with rfl | among
    · exact fun same => nomatch same
    · cases List.mem_singleton.mp among
      exact fun same => nomatch same
  destination := by
    intro step member ctx
    obtain ⟨template, among, rfl⟩ := List.mem_map.mp member
    rcases List.mem_cons.mp among with rfl | among
    · exact fun same => nomatch same
    · cases List.mem_singleton.mp among
      unfold TemplateStep.toStep contactStep
      simp only
      split
      · exact fun same => nomatch same
      · intro empty
        exact absurd (Except.error.inj empty) (by decide)

private theorem contactFirst_speaks : ErrorsSpeak activityError contactFirstTemplate.steps where
  described := activityError_ne_empty
  payload := by
    intro step member ctx
    obtain ⟨template, among, rfl⟩ := List.mem_map.mp member
    rcases List.mem_cons.mp among with rfl | among
    · exact fun same => nomatch same
    · cases List.mem_singleton.mp among
      exact fun same => nomatch same
  destination := by
    intro step member ctx
    obtain ⟨template, among, rfl⟩ := List.mem_map.mp member
    rcases List.mem_cons.mp among with rfl | among
    · exact fun same => nomatch same
    · cases List.mem_singleton.mp among
      exact fun same => nomatch same

/-- The second step of the chain fails, and with it the row. -/
theorem failed_contact_says_why :
    ∃ processed, processOneRow chainSha256 activityError 1 7 namedRow accountTemplate.steps {}
        [createdAccount, unsentContact] none {} = some processed ∧
      processed.status = some .failed ∧
      RowReported {} "run" namedRow accountTemplate.steps {} processed .failed := by
  refine ⟨_, rfl, rfl, ?_⟩
  apply (@failed_row_says_why_iff chainSha256 activityError 1 7 namedRow accountTemplate.steps {}
    [createdAccount, unsentContact] none {} _ .failed "run" accountTemplate_speaks rfl rfl).mpr
  intro last newest done
  cases newest
  exact absurd done (by decide)

/-- The first step fails and is passed over, the second succeeds: the row is
recorded failed without an error. -/
theorem continued_failure_untold :
    ErrorsSpeak activityError contactFirstTemplate.steps ∧
      ∃ processed, processOneRow chainSha256 activityError 1 7 namedRow
          contactFirstTemplate.steps {} [unsentContact, createdAccount] none {} =
            some processed ∧
        processed.status = some .failed ∧
        stepStatuses processed.executed = [.succeeded, .failed] ∧
        (∃ stored, lookup StoredRow.index 3 (persistOutcome []
            (rowOutcome "run" namedRow true processed.executed .failed)) = some stored ∧
          stored.status = .failed ∧ stored.lastError = none) ∧
        ¬RowReported {} "run" namedRow contactFirstTemplate.steps {} processed .failed := by
  refine ⟨contactFirst_speaks, _, rfl, rfl, rfl, ⟨_, rfl, rfl, rfl⟩, ?_⟩
  intro reported
  obtain ⟨stored, found, _, explained⟩ := reported.stored []
  obtain ⟨text, recorded, _⟩ := explained (by decide)
  cases found
  cases recorded

end MigrationPlatform.Workflow
