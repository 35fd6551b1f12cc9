/-
The stage scheduler of `BatchWorkflow` for manifests with dependencies.

`runStagesDAG` goes in rounds: it skips the stages that a failure has blocked,
starts every ready stage as a wave, and waits for the wave. The log, newest
first, holds what the workflow does and learns in the order of its history.
-/

import MigrationPlatform.Batch.Manifest
import MigrationPlatform.Foundation.TotalCorrectness
import Mathlib.Data.List.Infix

namespace MigrationPlatform.Batch

open TotalCorrectness

structure StagedFile where
  stageKey : String
  onFailure : String
  dependsOn : List String
deriving DecidableEq, Repr

structure ResolvedStage where
  stageRowID : Int
  stageKey : String
  onFailure : String
  dependsOn : List String
deriving DecidableEq, Repr

def Manifest.stagedFiles (m : Manifest) : List StagedFile :=
  m.stages.map (fun st =>
    { stageKey := st.id, onFailure := m.effectiveOnFailure st, dependsOn := st.dependsOn })

def materializedPolicy (onStageFailure onFailure : String) : String :=
  let onFail := if onFailure = "" then onStageFailure else onFailure
  if onFail = "" then "stop" else onFail

def materializeBatchStages (onStageFailure : String) (rowIDs : Nat → Int)
    (stages : List StagedFile) : List ResolvedStage :=
  stages.mapIdx (fun i st =>
    { stageRowID := rowIDs i
      stageKey := st.stageKey
      onFailure := materializedPolicy onStageFailure st.onFailure
      dependsOn := st.dependsOn })

def Manifest.resolvedStages (m : Manifest) (rowIDs : Nat → Int) : List ResolvedStage :=
  materializeBatchStages m.onStageFailure rowIDs m.stagedFiles

structure StageNode where
  id : String
  dependsOn : List String
deriving DecidableEq, Repr

def stageNodes (stages : List ResolvedStage) : List StageNode :=
  stages.map (fun st => { id := st.stageKey, dependsOn := st.dependsOn })

inductive StageRunStatus
  | pending
  | succeeded
  | failed
  | skipped
deriving DecidableEq, Repr

abbrev StageStatuses := String → Option StageRunStatus

def readyStageIDs (nodes : List StageNode) (status : StageStatuses) : List String :=
  (nodes.filter (fun n => decide (status n.id = some .pending) &&
    n.dependsOn.all (fun d => decide (status d = some .succeeded)))).map StageNode.id

def depsBlocking (n : StageNode) (status : StageStatuses) : Bool :=
  n.dependsOn.any (fun d =>
    decide (status d = some .failed) || decide (status d = some .skipped))

/-- What the parent reads of the result of a child `MigrationWorkflow`. -/
structure ChildResult where
  failed : Nat
  unresolved : Nat
  cancelled : Bool
deriving DecidableEq, Repr

structure ChildStartError where
  message : String
  alreadyStartedType : Bool
deriving DecidableEq, Repr

def containsText (text part : String) : Bool := decide (part.toList <:+: text.toList)

def ChildStartError.isAlreadyStarted (e : ChildStartError) : Bool :=
  e.alreadyStartedType || containsText e.message "already started" ||
    containsText e.message "AlreadyStarted"

structure FinalizeBatchStageInput where
  stageRowID : Int
  jobID : Int := 0
  status : String
  error : String := ""
deriving DecidableEq, Repr

/-- The answers of the activities and of the child workflows. An activity that
persists something answers with an error or with none. -/
structure StageEnv where
  startBatchStageJob : ResolvedStage → Except String Int
  startChild : ResolvedStage → Except ChildStartError String
  child : ResolvedStage → Except String ChildResult
  markJobRunning : Int → String → Option String
  finalizeBatchStage : FinalizeBatchStageInput → Option String

def stageError : Except String ChildResult → Option String
  | .error message => some message
  | .ok result =>
      if 0 < result.failed ∨ 0 < result.unresolved ∨ result.cancelled = true then
        some ("job finished with failed=" ++ toString result.failed ++ " unresolved=" ++
          toString result.unresolved ++ " cancelled=" ++ toString result.cancelled)
      else
        none

inductive StageEvent
  | start (st : ResolvedStage)
  | observe (st : ResolvedStage) (succeeded : Bool)
  | finalize (st : ResolvedStage) (status error : String)
deriving DecidableEq, Repr

def StageEvent.stage : StageEvent → ResolvedStage
  | .start st => st
  | .observe st _ => st
  | .finalize st _ _ => st

structure Dag where
  status : StageStatuses
  stagesOK : Nat
  stagesFailed : Nat
  stopEarly : Bool
  log : List StageEvent

def Dag.setStatus (dag : Dag) (key : String) (status : StageRunStatus) : Dag :=
  { dag with status := Function.update dag.status key (some status) }

def Dag.record (dag : Dag) (event : StageEvent) : Dag := { dag with log := event :: dag.log }

def byKey (stages : List ResolvedStage) (key : String) : ResolvedStage :=
  (stages.reverse.find? (fun st => decide (st.stageKey = key))).getD
    { stageRowID := 0, stageKey := "", onFailure := "", dependsOn := [] }

def initialDag (stages : List ResolvedStage) : Dag :=
  { status := fun key => if key ∈ stages.map ResolvedStage.stageKey then some .pending else none
    stagesOK := 0, stagesFailed := 0, stopEarly := false, log := [] }

def finalizeBatchStage (env : StageEnv) (st : ResolvedStage) (jobID : Int)
    (status error : String) (dag : Dag) : Except String Dag :=
  match env.finalizeBatchStage
      { stageRowID := st.stageRowID, jobID := jobID, status := status, error := error } with
  | some problem =>
      .error ("finalize batch stage " ++ toString st.stageRowID ++ ": " ++ problem)
  | none => .ok (dag.record (.finalize st status error))

def skipStage (env : StageEnv) (st : ResolvedStage) (reason : String) (dag : Dag) :
    Except String Dag :=
  match finalizeBatchStage env st 0 "failed" reason dag with
  | .error problem => .error ("persist skipped stage " ++ st.stageKey ++ ": " ++ problem)
  | .ok dag => .ok { dag with stagesFailed := dag.stagesFailed + 1 }

def skipAndMark (env : StageEnv) (stages : List ResolvedStage) (id reason : String) (dag : Dag) :
    Except String Dag := do
  let dag ← skipStage env (byKey stages id) reason dag
  pure (dag.setStatus id .skipped)

def skipPass (env : StageEnv) (stages : List ResolvedStage) (dag : Dag) :
    Except String (Dag × Bool) :=
  (stageNodes stages).foldlM (fun (current : Dag × Bool) n =>
    if current.1.status n.id ≠ some .pending then
      pure current
    else if current.1.stopEarly then do
      let dag ← skipAndMark env stages n.id "skipped due to prior stage failure" current.1
      pure (dag, true)
    else if depsBlocking n current.1.status then do
      let dag ← skipAndMark env stages n.id "skipped due to failed dependency" current.1
      pure (dag, true)
    else
      pure current) (dag, false)

def skipRest (env : StageEnv) (stages : List ResolvedStage) (dag : Dag) : Except String Dag :=
  (stageNodes stages).foldlM (fun dag n =>
    if dag.status n.id = some .pending then
      skipAndMark env stages n.id "skipped: dependencies never satisfied" dag
    else
      pure dag) dag

def Dag.settle (dag : Dag) (st : ResolvedStage) : Option String → Dag
  | none => { dag with
      stagesOK := dag.stagesOK + 1
      status := Function.update dag.status st.stageKey (some .succeeded) }
  | some _ => { dag with
      stagesFailed := dag.stagesFailed + 1
      status := Function.update dag.status st.stageKey (some .failed)
      stopEarly := dag.stopEarly || decide (st.onFailure ≠ "continue") }

def settledStatus : Option String → String
  | none => "succeeded"
  | some _ => "failed"

/-- The events of `st` behind its start, with the bookkeeping of its outcome. -/
def settleStage (env : StageEnv) (st : ResolvedStage) (jobID : Int) (error : Option String)
    (dag : Dag) : Except String Dag :=
  finalizeBatchStage env st jobID (settledStatus error) (error.getD "")
    ((dag.record (.observe st error.isNone)).settle st error)

structure WaveItem where
  st : ResolvedStage
  jobID : Int
deriving DecidableEq, Repr

def startStage (env : StageEnv) (stages : List ResolvedStage) (current : Dag × List WaveItem)
    (id : String) : Except String (Dag × List WaveItem) :=
  if current.1.stopEarly then do
    let dag ← skipAndMark env stages id "skipped due to prior stage failure" current.1
    pure (dag, current.2)
  else
    let st := byKey stages id
    let dag := current.1.record (.start st)
    match env.startBatchStageJob st with
    | .error message => do
        let dag ← settleStage env st 0 (some message) dag
        pure (dag, current.2)
    | .ok jobID =>
        match env.startChild st with
        | .error e =>
            if e.isAlreadyStarted then
              pure (dag, current.2 ++ [{ st := st, jobID := jobID }])
            else do
              let dag ← settleStage env st jobID (some e.message) dag
              pure (dag, current.2)
        | .ok runID =>
            match env.markJobRunning jobID runID with
            | some problem => .error ("mark stage job running: " ++ problem)
            | none => pure (dag, current.2 ++ [{ st := st, jobID := jobID }])

def waitStage (env : StageEnv) (dag : Dag) (item : WaveItem) : Except String Dag :=
  settleStage env item.st item.jobID (stageError (env.child item.st)) dag

def pendingLeft (stages : List ResolvedStage) (dag : Dag) : Bool :=
  stages.any (fun st => decide (dag.status st.stageKey = some .pending))

/-- One turn of the outer loop; the second component says that it ends there. -/
def dagRound (env : StageEnv) (stages : List ResolvedStage) (dag : Dag) :
    Except String (Dag × Bool) := do
  let (dag, progress) ← skipPass env stages dag
  let readyIDs := readyStageIDs (stageNodes stages) dag.status
  if readyIDs = [] then
    let dag ← skipRest env stages dag
    pure (dag, !progress)
  else
    let (dag, wave) ← readyIDs.foldlM (startStage env stages) (dag, [])
    let dag ← wave.foldlM (waitStage env) dag
    pure (dag, !pendingLeft stages dag)

/-- `none` where so many turns of the loop are not enough. -/
def runStagesDAG (env : StageEnv) (turns : Nat) (stages : List ResolvedStage) :
    Option (Except String Dag) :=
  iterate (dagRound env stages) turns (initialDag stages)

end MigrationPlatform.Batch
