/-
`runMigration` and the chain of runs that continue as new.

The loop body is a function of what the activities return in one round. A
chain is a sequence of starts and rounds: a round goes on, hands its checkpoint
to a fresh run, completes the job or ends it with an error. Pausing shows only
through the sleep it may end with; the wait for a pending source is a sleep as
well, and `PublishProgress` returns nothing that is used.
-/

import MigrationPlatform.Foundation.GuardedRuns
import MigrationPlatform.Workflow.Checkpoint

namespace MigrationPlatform.Workflow

open MigrationPlatform.Connectors MigrationPlatform.Delivery

structure LoadTemplateOutput where
  version : Int
  hasPreprocess : Bool := false
  maxAttempts : Nat := 5
  steps : List Step

structure HistorySnapshot where
  events : Int
  bytes : Int
  suggested : Bool
  lastEvents : Int
  lastBytes : Int

def historyEventBudget : Int := 10000

def historyByteBudget : Int := 8388608

def shouldContinueAsNew (h : HistorySnapshot) : Bool :=
  if h.suggested = true then true
  else decide (h.events + h.lastEvents > historyEventBudget ∨
    h.bytes + h.lastBytes > historyByteBudget)

structure RowEnv where
  steps : List StepEnv
  persist : Option String := none

structure RoundEnv where
  pauseSleep : Option String := none
  ingest : Except String IngestOutput
  pendingSleep : Option String := none
  history : HistorySnapshot
  preprocess : Except String (List Data)
  rows : List RowEnv

structure MigrationRun where
  template : LoadTemplateOutput
  cp : Checkpoint
  result : MigrationWorkflowResult
  batchIdx : Nat := 0

def Checkpoint.totals (c : Checkpoint) : MigrationWorkflowResult :=
  { processed := c.processed, failed := c.failed, unresolved := c.unresolved }

def preprocessRows (hasPreprocess : Bool) (rows : List Row) (batch : Except String (List Data)) :
    Except String (List Row) :=
  if hasPreprocess = false ∨ rows.length = 0 then .ok rows
  else
    match batch with
    | .error message => .error message
    | .ok out =>
        if out.length ≠ rows.length then
          .error ("preprocess returned " ++ toString out.length ++ " rows for " ++
            toString rows.length ++ " inputs")
        else .ok (List.zipWith (fun row data => { row with data := data }) rows out)

structure BatchEnd where
  handed : List Int
  result : MigrationWorkflowResult
  error : Option String

section Round

variable (sha256Hex : String → String) (describe : ActivityError → String)

/-- `none` when the environment is too short for the rows. -/
def processRows (template : LoadTemplateOutput) (jobID : Int) :
    List Row → List RowEnv → MigrationWorkflowResult → Option BatchEnd
  | [], _, result => some { handed := [], result := result, error := none }
  | _ :: _, [], _ => none
  | row :: rest, env :: envs, result =>
      match processOneRow sha256Hex describe template.maxAttempts jobID row template.steps {}
          env.steps env.persist result with
      | none => none
      | some processed =>
          match processed.error with
          | some message =>
              some { handed := [row.index], result := processed.result, error := some message }
          | none =>
              (processRows template jobID rest envs processed.result).map
                (fun tail => { tail with handed := row.index :: tail.handed })

def continueMigrationAsNew (input : MigrationWorkflowInput) (cp : Checkpoint)
    (templateVersion : Int) : MigrationWorkflowInput :=
  { input with
    checkpoint := some cp
    legacyOffset := none
    ruleTemplateVersion :=
      if input.ruleTemplateVersion = 0 ∧ templateVersion > 0 then templateVersion
      else input.ruleTemplateVersion }

/-- How a round ends. `polled` says that the source was pending. -/
inductive RoundEnd
  | goesOn (run : MigrationRun)
  | continued (cp : Checkpoint) (polled : Bool)
  | completed (run : MigrationRun)
  | failed (err : MigrationError)

def Checkpoint.advanced (cp : Checkpoint) (out : IngestOutput)
    (result : MigrationWorkflowResult) : Checkpoint :=
  { cp with
    offset := out.newOffset
    nextRowIndex := out.newOffset.items
    processed := result.processed
    failed := result.failed
    unresolved := result.unresolved
    sourceVersion := if cp.sourceVersion = "" then out.sourceVersion else cp.sourceVersion }

def afterBatch (checkpointed : Bool) (env : RoundEnv) (out : IngestOutput) (run : MigrationRun) :
    RoundEnd :=
  if out.done = true then .completed run
  else if checkpointed = true then
    if shouldContinueAsNew env.history = true then .continued run.cp false else .goesOn run
  else if run.batchIdx % 100 = 0 then .continued run.cp false
  else .goesOn run

def round (checkpointed : Bool) (jobID : Int) (run : MigrationRun) (env : RoundEnv) :
    Option (List Int × RoundEnd) :=
  match env.pauseSleep with
  | some message => some ([], .failed (.plain message))
  | none =>
      match env.ingest with
      | .error message => some ([], .failed (.plain ("ingest: " ++ message)))
      | .ok out =>
          if out.pending = true then
            let polled := { run with cp := { run.cp with offset := out.newOffset } }
            match env.pendingSleep with
            | some message => some ([], .failed (.plain message))
            | none =>
                if checkpointed = true ∧ shouldContinueAsNew env.history = true then
                  some ([], .continued polled.cp true)
                else some ([], .goesOn polled)
          else
            match if checkpointed = true then
                checkRowContinuity run.cp.nextRowIndex out.rows out.newOffset out.done
              else none with
            | some message => some ([], .failed (.invalidCheckpoint message))
            | none =>
                match preprocessRows run.template.hasPreprocess out.rows env.preprocess with
                | .error message => some ([], .failed (.plain ("preprocess: " ++ message)))
                | .ok rows =>
                    (processRows sha256Hex describe run.template jobID rows env.rows
                      run.result).map (fun batch =>
                        match batch.error with
                        | some message => (batch.handed, .failed (.plain message))
                        | none =>
                            (batch.handed, afterBatch checkpointed env out
                              { run with
                                cp := run.cp.advanced out batch.result
                                result := batch.result
                                batchIdx := run.batchIdx + 1 }))

end Round

inductive ChainPhase
  | starting
  | looping (run : MigrationRun)
  | completed (run : MigrationRun)
  | failed (err : MigrationError)

structure HandOver where
  cp : Checkpoint
  polled : Bool

/-- The chain of a job: the input of its newest run, where that run is, and all
that was handed to `processOneRow` or to a next run so far. -/
structure ChainState where
  input : MigrationWorkflowInput
  phase : ChainPhase := .starting
  handed : List Int := []
  handovers : List HandOver := []

inductive ChainAction
  | start (licensed : Option String) (loaded : Except String LoadTemplateOutput)
  | round (env : RoundEnv)

def startRun (input : MigrationWorkflowInput) (licensed : Option String)
    (loaded : Except String LoadTemplateOutput) : ChainPhase :=
  match licensed with
  | some message => .failed (.plain ("runtime license gate: " ++ message))
  | none =>
      match loaded with
      | .error message => .failed (.plain ("load template: " ++ message))
      | .ok template =>
          match startingCheckpoint input with
          | .error err => .failed err
          | .ok cp => .looping { template := template, cp := cp, result := cp.totals }

def ChainState.after (s : ChainState) (run : MigrationRun) (handed : List Int) :
    RoundEnd → ChainState
  | .goesOn next => { s with phase := .looping next, handed := s.handed ++ handed }
  | .completed last => { s with phase := .completed last, handed := s.handed ++ handed }
  | .failed err => { s with phase := .failed err, handed := s.handed ++ handed }
  | .continued cp polled =>
      { input := continueMigrationAsNew s.input cp run.template.version
        phase := .starting
        handed := s.handed ++ handed
        handovers := s.handovers ++ [{ cp := cp, polled := polled }] }

def ChainState.step (sha256Hex : String → String) (describe : ActivityError → String)
    (checkpointed : Bool) (s : ChainState) : ChainAction → Option ChainState
  | .start licensed loaded =>
      match s.phase with
      | .starting => some { s with phase := startRun s.input licensed loaded }
      | _ => none
  | .round env =>
      match s.phase with
      | .looping run =>
          (Workflow.round sha256Hex describe checkpointed s.input.jobID run env).map
            (fun ended => s.after run ended.1 ended.2)
      | _ => none

end MigrationPlatform.Workflow
