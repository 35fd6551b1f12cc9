/-
`executeStep` and `processOneRow`: the step chain of one row and what is
recorded of it.

Rendering a step from the row and the responses so far is a parameter, since
the template language is modelled elsewhere. What the workflow sees of a call
is the end of its last attempt, while an earlier attempt may already have been
applied. `failed_row_not_applied_iff` says exactly when a row that is recorded
failed can be trusted not to have been applied.
-/

import MigrationPlatform.Connectors.Ingest
import MigrationPlatform.Delivery.StepRequest
import MigrationPlatform.Workflow.CallActivity

namespace MigrationPlatform.Workflow

open MigrationPlatform.Connectors MigrationPlatform.Delivery

structure RenderContext where
  row : Data
  responses : List (String × String) := []

def RenderContext.addResponse (ctx : RenderContext) (name body : String) : RenderContext :=
  { ctx with responses := ctx.responses ++ [(name, body)] }

/-- The three renderings of a step, in the order they are made. `lookup` is
`none` when the step declares no lookup. -/
structure Rendering where
  payload : Except String String
  destination : Except String String
  lookup : Option (Except String RenderedLookup) := none

structure Step where
  name : String
  method : String
  hasBody : Bool
  mode : DeliveryMode
  retentionHours : Int := 0
  continuesOnFailure : Bool := false
  render : RenderContext → Rendering

/-- `rowRun`: how a row is processed. `resume` holds the responses of the steps
that succeeded before, by name. -/
structure RowRun where
  resume : Option (List (String × String)) := none
  resend : Bool := false
  confirmNotApplied : Bool := false

structure OutcomeRecord where
  status : StepStatus
  requestURL : String := ""
  request : Option String := none
  responseStatus : Nat := 0
  response : Option String := none
  lastError : String := ""
deriving DecidableEq, Repr

/-- The attempts that a step's call may need, and the error of recording it. -/
structure StepEnv where
  attempts : List AttemptEnv
  persist : Option String := none

structure StepExecution where
  stepName : String
  called : Option (CallEndpointInput × Attempts)
  record : OutcomeRecord

section Execution

-- the hash, and the text that the SDK gives an activity error
variable (sha256Hex : String → String) (describe : ActivityError → String)

def stepCall (jobID rowIndex stepIndex : Int) (step : Step) (lookup : Option RenderedLookup) :
    StepCall :=
  { op := { jobID := jobID, rowIndex := rowIndex, stepIndex := stepIndex, stepName := step.name }
    method := step.method
    hasBody := step.hasBody
    mode := step.mode
    retentionHours := step.retentionHours
    lookup := lookup }

def renderFailed (step : Step) (record : OutcomeRecord) : StepExecution :=
  { stepName := step.name, called := none, record := { record with status := .failed } }

def callRecord (url payload : String) : ActivityResult → OutcomeRecord
  | .failed err =>
      { status := stepStatus (.failed err), requestURL := url, request := some payload
        lastError := describe err }
  | .completed output =>
      { status := stepStatus (.completed output), requestURL := url, request := some payload
        responseStatus := output.status, response := some output.body
        lastError :=
          match stepStatus (.completed output) with
          | .succeeded => ""
          | .unresolved => output.error
          | .failed =>
              if output.error = "" then "status " ++ toString output.status else output.error }

/-- `none` when the environment is too short for the call. -/
def executeStep (maxAttempts : Nat) (jobID rowIndex stepIndex : Int) (step : Step)
    (ctx : RenderContext) (run : RowRun) (env : StepEnv) : Option StepExecution :=
  match (step.render ctx).payload with
  | .error message => some (renderFailed step { status := .failed, lastError := message })
  | .ok payload =>
      match (step.render ctx).destination with
      | .error message =>
          some (renderFailed step
            { status := .failed, request := some payload, lastError := message })
      | .ok url =>
          match (step.render ctx).lookup with
          | some (.error message) =>
              some (renderFailed step
                { status := .failed, requestURL := url, request := some payload
                  lastError := "delivery.lookup: " ++ message })
          | lookup =>
              let rendered := lookup.bind Except.toOption
              let input := (stepCall jobID rowIndex stepIndex step rendered).input sha256Hex
                payload run.resend run.confirmNotApplied
              (executeActivity (callEndpoint sha256Hex input) maxAttempts env.attempts).map
                (fun attempts =>
                  { stepName := step.name
                    called := some (input, attempts)
                    record := callRecord describe url payload
                      (attempts.result (callEndpoint sha256Hex input)) })

end Execution

structure MigrationWorkflowResult where
  processed : Int := 0
  failed : Int := 0
  unresolved : Int := 0
deriving DecidableEq, Repr

def MigrationWorkflowResult.count (result : MigrationWorkflowResult) :
    StepStatus → MigrationWorkflowResult
  | .succeeded => { result with processed := result.processed + 1 }
  | .failed => { result with failed := result.failed + 1 }
  | .unresolved => { result with unresolved := result.unresolved + 1 }

/-- The chain so far: the executed steps, newest first, the state of the loop
and the error of recording a step, which ends the row. -/
structure Chain where
  executed : List StepExecution := []
  ctx : RenderContext
  anyFailed : Bool := false
  unresolved : Bool := false
  error : Option String := none

def persistStepError (step : Step) (rowIndex : Int) (message : String) : String :=
  "persist step " ++ step.name.quote ++ " outcome for row " ++ toString rowIndex ++ ": " ++ message

/-- One executed step: `stop` is whether the loop ends here. Steps are recorded
only in a chain of several. -/
def Chain.after (chain : Chain) (multiStep : Bool) (rowIndex : Int) (step : Step)
    (env : StepEnv) (execution : StepExecution) : Chain × Bool :=
  let executed := execution :: chain.executed
  match if multiStep = true then env.persist else none with
  | some message =>
      ({ chain with executed := executed, error := some (persistStepError step rowIndex message) },
        true)
  | none =>
      match execution.record.status with
      | .unresolved => ({ chain with executed := executed, unresolved := true }, true)
      | .failed =>
          ({ chain with executed := executed, anyFailed := true }, !step.continuesOnFailure)
      | .succeeded =>
          ({ chain with
             executed := executed
             ctx := chain.ctx.addResponse step.name (execution.record.response.getD "") }, false)

section Row

variable (sha256Hex : String → String) (describe : ActivityError → String)

def runChain (maxAttempts : Nat) (jobID rowIndex : Int) (multiStep : Bool) (run : RowRun) :
    Int → List Step → List StepEnv → Chain → Option Chain
  | _, [], _, chain => some chain
  | stepIndex, step :: rest, envs, chain =>
      match run.resume.bind (fun responses => responses.lookup step.name) with
      | some body =>
          runChain maxAttempts jobID rowIndex multiStep run (stepIndex + 1) rest envs
            { chain with ctx := chain.ctx.addResponse step.name body }
      | none =>
          match envs with
          | [] => none
          | env :: later =>
              match executeStep sha256Hex describe maxAttempts jobID rowIndex stepIndex step
                  chain.ctx run env with
              | none => none
              | some execution =>
                  if (chain.after multiStep rowIndex step env execution).2 = true then
                    some (chain.after multiStep rowIndex step env execution).1
                  else
                    runChain maxAttempts jobID rowIndex multiStep run (stepIndex + 1) rest later
                      (chain.after multiStep rowIndex step env execution).1

def Chain.status (chain : Chain) : StepStatus :=
  if chain.unresolved = true then .unresolved
  else if chain.anyFailed = true then .failed
  else .succeeded

structure RowExecution where
  executed : List StepExecution
  status : Option StepStatus
  result : MigrationWorkflowResult
  error : Option String

/-- `persist` is the error of `PersistOutcome`, if any. -/
def processOneRow (maxAttempts : Nat) (jobID : Int) (row : Row) (steps : List Step)
    (run : RowRun) (envs : List StepEnv) (persist : Option String)
    (result : MigrationWorkflowResult) : Option RowExecution :=
  (runChain sha256Hex describe maxAttempts jobID row.index (decide (1 < steps.length)) run 0 steps
    envs { ctx := { row := row.data } }).map (fun chain =>
      match chain.error with
      | some message =>
          { executed := chain.executed, status := none, result := result, error := some message }
      | none =>
          { executed := chain.executed
            status := some chain.status
            result := result.count chain.status
            error := persist.map (fun message =>
              "persist row " ++ toString row.index ++ " outcome: " ++ message) })

end Row

def StepExecution.Effect (sha256Hex : String → String) (execution : StepExecution) : Prop :=
  match execution.called with
  | none => False
  | some (input, attempts) =>
      ∃ env ∈ attempts.all, (callEndpoint sha256Hex input env).effect = true

/-- If some attempt of the step may have been applied, its last attempt says so,
or its worker is lost and the attempt before it says so. -/
def StepExecution.Conclusive (sha256Hex : String → String) (execution : StepExecution) : Prop :=
  match execution.called with
  | none => True
  | some (input, attempts) =>
      execution.Effect sha256Hex →
        Workflow.Conclusive sha256Hex input (attempts.Heard sha256Hex input) attempts.last

def StepExecution.RecordedBy (sha256Hex : String → String) (execution : StepExecution) : Prop :=
  match execution.called with
  | none => execution.record.status = .failed
  | some (input, attempts) =>
      (∀ env ∈ attempts.earlier, (callEndpoint sha256Hex input env).ends.retryable = true) ∧
        execution.record.status = stepStatus (attempts.result (callEndpoint sha256Hex input))

section Recorded

variable {sha256Hex : String → String} {describe : ActivityError → String}

private theorem executeStep_recorded {maxAttempts : Nat} {jobID rowIndex stepIndex : Int}
    {step : Step}
    {ctx : RenderContext} {run : RowRun} {env : StepEnv} {execution : StepExecution}
    (executed : executeStep sha256Hex describe maxAttempts jobID rowIndex stepIndex step ctx run
      env = some execution) : execution.RecordedBy sha256Hex := by
  unfold executeStep at executed
  split at executed
  · cases executed
    rfl
  · split at executed
    · cases executed
      rfl
    · split at executed
      · cases executed
        rfl
      · obtain ⟨attempts, made, rfl⟩ := Option.map_eq_some_iff.mp executed
        refine ⟨executeActivity_retried made, ?_⟩
        cases attempts.result (callEndpoint sha256Hex _) <;> rfl

/-- An unresolved step ends the chain as unresolved, unless it was not recorded. -/
structure ChainSound (sha256Hex : String → String) (chain : Chain) : Prop where
  recorded : ∀ execution ∈ chain.executed, execution.RecordedBy sha256Hex
  unresolved : ∀ execution ∈ chain.executed, execution.record.status = .unresolved →
    chain.unresolved = true ∨ chain.error ≠ none

theorem ChainSound.after {chain : Chain} (sound : ChainSound sha256Hex chain)
    {execution : StepExecution} (recorded : execution.RecordedBy sha256Hex) (multiStep : Bool)
    (rowIndex : Int) (step : Step) (env : StepEnv) :
    ChainSound sha256Hex (chain.after multiStep rowIndex step env execution).1 := by
  have all : ∀ other ∈ execution :: chain.executed, other.RecordedBy sha256Hex := by
    intro other member
    rcases List.mem_cons.mp member with rfl | older
    · exact recorded
    · exact sound.recorded other older
  unfold Chain.after
  split
  · exact ⟨all, fun _ _ _ => Or.inr (fun impossible => nomatch impossible)⟩
  · -- what is left are the three statuses; only `unresolved` adds an unresolved step
    split
    · exact ⟨all, fun _ _ _ => Or.inl rfl⟩
    · rename_i status
      refine ⟨all, ?_⟩
      intro other member unresolved
      rcases List.mem_cons.mp member with rfl | older
      · rw [status] at unresolved
        cases unresolved
      · exact sound.unresolved other older unresolved
    · rename_i status
      refine ⟨all, ?_⟩
      intro other member unresolved
      rcases List.mem_cons.mp member with rfl | older
      · rw [status] at unresolved
        cases unresolved
      · exact sound.unresolved other older unresolved

theorem Chain.after_error {multiStep : Bool} {rowIndex : Int} {env : StepEnv}
    (recorded : env.persist = none) (chain : Chain) (step : Step) (execution : StepExecution) :
    (chain.after multiStep rowIndex step env execution).1.error = chain.error := by
  unfold Chain.after
  rw [recorded, ite_self]
  cases execution.record.status with
  | succeeded => rfl
  | failed => rfl
  | unresolved => rfl

theorem runChain_invariant {maxAttempts : Nat} {jobID rowIndex : Int} {multiStep : Bool}
    {run : RowRun} {final : Chain} (Allowed : StepEnv → Prop) (Holds : Chain → Prop)
    (resumed : ∀ (chain : Chain) (step : Step) (body : String), Holds chain →
      Holds { chain with ctx := chain.ctx.addResponse step.name body })
    (executed : ∀ (stepIndex : Int) (chain : Chain) (step : Step) (env : StepEnv)
      (execution : StepExecution), Allowed env → Holds chain →
      executeStep sha256Hex describe maxAttempts jobID rowIndex stepIndex step chain.ctx run env =
        some execution → Holds (chain.after multiStep rowIndex step env execution).1)
    (steps : List Step) :
    ∀ (stepIndex : Int) (envs : List StepEnv) (chain : Chain), (∀ env ∈ envs, Allowed env) →
      Holds chain →
      runChain sha256Hex describe maxAttempts jobID rowIndex multiStep run stepIndex steps envs
        chain = some final → Holds final := by
  induction steps with
  | nil =>
      intro stepIndex envs chain _allowed holds ran
      cases ran
      exact holds
  | cons step rest ih =>
      intro stepIndex envs chain allowed holds ran
      unfold runChain at ran
      split at ran
      · exact ih _ envs _ allowed (resumed chain step _ holds) ran
      · cases envs with
        | nil => cases ran
        | cons env later =>
            have behind : ∀ other ∈ later, Allowed other :=
              fun other among => allowed other (List.mem_cons_of_mem _ among)
            simp only at ran
            split at ran
            · cases ran
            · rename_i execution found
              have after := executed stepIndex chain step env execution
                (allowed env List.mem_cons_self) holds found
              split at ran
              · cases ran
                exact after
              · exact ih _ later _ behind after ran

theorem runChain_sound {maxAttempts : Nat} {jobID rowIndex : Int} {multiStep : Bool}
    {run : RowRun} {final : Chain} (steps : List Step) (stepIndex : Int) (envs : List StepEnv)
    (chain : Chain) (sound : ChainSound sha256Hex chain)
    (ran : runChain sha256Hex describe maxAttempts jobID rowIndex multiStep run stepIndex steps
      envs chain = some final) : ChainSound sha256Hex final := by
  refine runChain_invariant (fun _ => True) (ChainSound sha256Hex) ?_ ?_ steps stepIndex envs chain
    (fun _ _ => trivial) sound ran
  · intro chain step body sound
    exact ⟨sound.recorded, sound.unresolved⟩
  · intro index chain step env execution _allowed sound found
    exact sound.after (executeStep_recorded found) multiStep rowIndex step env

end Recorded

/-! ### Failed rows and what they say -/

/-- A step recorded failed was not applied, and a step that may have been
applied is recorded unresolved, and its row with it. -/
structure RowHonest (sha256Hex : String → String) (row : RowExecution) : Prop where
  failed : ∀ execution ∈ row.executed, execution.record.status = .failed →
    ¬execution.Effect sha256Hex
  unresolved : ∀ execution ∈ row.executed, execution.Effect sha256Hex →
    execution.record.status ≠ .succeeded →
    execution.record.status = .unresolved ∧
      ∀ status, row.status = some status → status = .unresolved

theorem conclusive_iff_not_failed {sha256Hex : String → String} {execution : StepExecution}
    (recorded : execution.RecordedBy sha256Hex) :
    execution.Conclusive sha256Hex ↔
      (execution.Effect sha256Hex → execution.record.status ≠ .failed) := by
  unfold StepExecution.Conclusive
  unfold StepExecution.RecordedBy at recorded
  cases called : execution.called with
  | none =>
      have noEffect : ¬execution.Effect sha256Hex := by
        unfold StepExecution.Effect
        rw [called]
        exact id
      exact ⟨fun _ effect => absurd effect noEffect, fun _ => trivial⟩
  | some call =>
      rw [called] at recorded
      obtain ⟨retried, status⟩ := recorded
      rw [status, result_status retried]

theorem failed_row_not_applied_iff (sha256Hex : String → String)
    (describe : ActivityError → String) (maxAttempts : Nat) (jobID : Int) (row : Row)
    (steps : List Step) (run : RowRun) (envs : List StepEnv) (persist : Option String)
    (result : MigrationWorkflowResult) (processed : RowExecution)
    (ran : processOneRow sha256Hex describe maxAttempts jobID row steps run envs persist result =
      some processed) :
    RowHonest sha256Hex processed ↔
      ∀ execution ∈ processed.executed, execution.Conclusive sha256Hex := by
  obtain ⟨chain, chained, ended⟩ := Option.map_eq_some_iff.mp ran
  have start : ChainSound sha256Hex { ctx := { row := row.data } } := by
    constructor <;> intro execution impossible <;> cases impossible
  have sound := runChain_sound steps 0 envs _ start chained
  have executed : processed.executed = chain.executed := by
    rw [← ended]
    split <;> rfl
  rw [executed]
  constructor
  · intro honest execution member
    rw [conclusive_iff_not_failed (sound.recorded execution member)]
    intro effect failed
    exact honest.failed execution (by rw [executed]; exact member) failed effect
  · intro conclusive
    have open_ : ∀ execution ∈ chain.executed, execution.Effect sha256Hex →
        execution.record.status ≠ .failed := by
      intro execution member
      exact (conclusive_iff_not_failed (sound.recorded execution member)).mp
        (conclusive execution member)
    constructor
    · intro execution member failed effect
      rw [executed] at member
      exact open_ execution member effect failed
    · intro execution member effect unfinished
      rw [executed] at member
      have unresolved : execution.record.status = .unresolved := by
        cases status : execution.record.status with
        | succeeded => exact absurd status unfinished
        | failed => exact absurd status (open_ execution member effect)
        | unresolved => rfl
      refine ⟨unresolved, ?_⟩
      intro status recorded
      rw [← ended] at recorded
      cases error : chain.error with
      | some message =>
          simp only [error] at recorded
          cases recorded
      | none =>
          simp only [error] at recorded
          cases recorded
          rcases sound.unresolved execution member unresolved with stopped | lost
          · simp [Chain.status, stopped]
          · exact absurd error lost

def createStep : Step :=
  { name := "main", method := "POST", hasBody := true, mode := .idempotent
    render := fun _ => { payload := .ok "\x7b\"n\":1\x7d", destination := .ok "https://api/contacts" } }

def createSha256 (text : String) : String :=
  if text = "\x7b\"n\":1\x7d" then
    "2bfd14f43d17fc7cea24e0917a8879b4b2f880b8baeec1b9d90fbaad655e71bd"
  else if text = "7-3-main-\x7b\"n\":1\x7d" then
    "892ea2eac27c2a44931b7c11840cf0b4d3b25a61f77ce24e39fc30bc5185e466"
  else ""

def describeError : ActivityError → String
  | .application (.plain message) => message
  | .application (.application _ message _) => message
  | .timeout => "activity StartToClose timeout"
  | .timeoutAfter cause => "activity StartToClose timeout: " ++ describeError cause

def runCreate (maxAttempts : Nat) (attempts : List AttemptEnv) : Option RowExecution :=
  processOneRow createSha256 describeError maxAttempts 7 { index := 3, data := [] } [createStep] {}
    [{ attempts := attempts }] none {}

def answered (attempt : AttemptId) (row : Option OperationRow) (status : Nat) : AttemptEnv :=
  { attemptID := attempt, begin := .ok (row, 0)
    send := { status := status, body := "null", preview := "(empty body)", wrote := true } }

def createInput (attempt : AttemptId) : BeginInput :=
  ((stepCall 7 3 0 createStep none).plan createSha256 "\x7b\"n\":1\x7d").beginInput attempt

def leftBy (status : Nat) : OperationRow :=
  ((insertPending (createInput "run:1:1")).grant (createInput "run:1:1") 0).finished
    ((classify (answered "run:1:1" none status).send).finishInput .idempotent)

def resentCreate : List AttemptEnv :=
  [answered "run:1:1" none 503, answered "run:1:2" (some (leftBy 503)) 201]

theorem create_honest_after_resend :
    ∃ processed, runCreate 5 resentCreate = some processed ∧ RowHonest createSha256 processed := by
  refine ⟨_, rfl, ?_⟩
  apply (failed_row_not_applied_iff createSha256 describeError 5 7 { index := 3, data := [] }
    [createStep] {} [{ attempts := resentCreate }] none {} _ rfl).mpr
  intro execution member
  cases List.mem_singleton.mp member
  intro _effect
  exact ⟨by decide, rfl, rfl, rfl⟩

/-- A success whose record was committed without acknowledgement, with no
attempt left; an unknown outcome followed by a rate-limited re-send; and a
rate-limited create whose second attempt lost its worker while its request was
in flight, so that the timeout has the refusal as its cause. All three rows are
recorded failed. -/
theorem failed_row_applied :
    (∃ processed, runCreate 1
        [{ answered "run:1:1" none 201 with
           finish := fun tries =>
             if tries = 0 then .failed "connection reset" else .leaseLost }] = some processed ∧
        processed.status = some .failed ∧ ¬RowHonest createSha256 processed) ∧
      (∃ processed, runCreate 2 [answered "run:1:1" none 503,
          answered "run:1:2" (some (leftBy 503)) 429] = some processed ∧
        processed.status = some .failed ∧ ¬RowHonest createSha256 processed) ∧
      ∃ processed, runCreate 2 [answered "run:1:1" none 429,
          { answered "run:1:2" (some (leftBy 429)) 201 with lost := some .inFlight }] =
            some processed ∧
        processed.status = some .failed ∧ ¬RowHonest createSha256 processed := by
  refine ⟨⟨_, rfl, rfl, ?_⟩, ⟨_, rfl, rfl, ?_⟩, ⟨_, rfl, rfl, ?_⟩⟩
  · intro honest
    exact honest.failed _ List.mem_cons_self rfl ⟨_, List.mem_cons_self, rfl⟩
  · intro honest
    exact honest.failed _ List.mem_cons_self rfl ⟨_, List.mem_cons_self, rfl⟩
  · intro honest
    exact honest.failed _ List.mem_cons_self rfl
      ⟨_, List.mem_cons_of_mem _ List.mem_cons_self, rfl⟩

end MigrationPlatform.Workflow
