/-
Interleaved runs of `WatchPrefixWorkflow` over the jobs, batches and cursors of
one organization.

A run lists objects, and for each new one inserts a job or a batch, starts its
workflow and remembers the object; at the end it records what it remembers in
the connector's cursor. Each activity is a step of its own that may fail, also
after it has committed. The workflow id of a job is made of the object alone, so
that a schedule may find the row of another in its place; where it only finds
rows of its own, `watch_runs_sound` holds.
-/

import MigrationPlatform.Batch.Manifest
import MigrationPlatform.Foundation.GuardedRuns
import MigrationPlatform.Watch.SftpListing
import Mathlib.Logic.Function.Basic

namespace MigrationPlatform.Watch

open MigrationPlatform.Connectors (checkOrgLocation)
open GuardedRuns KeyedTable

structure ObjectVersion where
  bucket : String
  key : String
  etag : String
deriving DecidableEq, Repr

/-- `remoteKey` is the key in the cursor, which differs from that of the object
where the object was staged. -/
structure WorkItem where
  remoteKey : String
  object : ObjectVersion
  archive : Bool
deriving DecidableEq, Repr

def WorkItem.entry (item : WorkItem) : String × String := (item.remoteKey, item.object.etag)

structure WatchInput where
  scheduleID : Int
  ruleTemplateID : Int
  ruleTemplateVersion : Int
  connectorID : Int
deriving DecidableEq, Repr

structure WatchJob where
  workflowID : String
  scheduleID : Int
  ruleTemplateID : Int
  ruleTemplateVersion : Int
  object : ObjectVersion
deriving DecidableEq, Repr

structure WatchBatch where
  workflowID : String
  scheduleID : Int
  connectorID : Int
  object : ObjectVersion
deriving DecidableEq, Repr

structure WatchEnv where
  sha256Hex : String → String
  orgID : Int
  allowedBuckets : List String

section Activities

variable (env : WatchEnv)

/-- The first sixteen bytes, in hexadecimal. -/
def objectDigest (object : ObjectVersion) : String :=
  let text := toString env.orgID ++ "|" ++ object.bucket ++ "|" ++ object.key ++ "|" ++ object.etag
  String.ofList ((env.sha256Hex text).toList.take 32)

def watchWorkflowID (object : ObjectVersion) : String :=
  "watch-" ++ toString env.orgID ++ "-" ++ objectDigest env object

def batchWorkflowID (object : ObjectVersion) : String :=
  "batch-" ++ toString env.orgID ++ "-" ++ objectDigest env object

def WorkItem.workflowID (item : WorkItem) : String :=
  if item.archive = true then batchWorkflowID env item.object
  else watchWorkflowID env item.object

def watchJob (input : WatchInput) (object : ObjectVersion) : WatchJob :=
  { workflowID := watchWorkflowID env object
    scheduleID := input.scheduleID
    ruleTemplateID := input.ruleTemplateID
    ruleTemplateVersion := input.ruleTemplateVersion
    object := object }

def watchBatch (input : WatchInput) (object : ObjectVersion) : WatchBatch :=
  { workflowID := batchWorkflowID env object
    scheduleID := input.scheduleID
    connectorID := input.connectorID
    object := object }

end Activities

def isArchive (key : String) : Bool :=
  let base := ((Batch.toLower key).toList.reverse.takeWhile (fun c => c != '/')).reverse
  ".tar.gz".toList.isSuffixOf base || ".tgz".toList.isSuffixOf base ||
    ".zip".toList.isSuffixOf base

def setEntry (seen : List (String × String)) (entry : String × String) : List (String × String) :=
  seen.filter (fun other => decide (other.1 ≠ entry.1)) ++ [entry]

def maxCursorEntries : Nat := 10000

/-- The smallest keys go when the map has grown too large. -/
def evict (seen : List (String × String)) : List (String × String) :=
  (seen.mergeSort (fun left right => decide (left.1 ≤ right.1))).drop
    (seen.length - maxCursorEntries)

def advanceCursor (seen entries : List (String × String)) : List (String × String) :=
  evict (entries.foldl setEntry seen)

inductive WatchPhase
  | next
  | startChild (item : WorkItem)
  | markRunning (item : WorkItem)
  | ended
deriving DecidableEq, Repr

/-- A run of the workflow. `advanced` is the map of that name with the items its
entries stand for; `outcomes` says of each item whether its start went through. -/
structure WatchRun where
  input : WatchInput
  pending : List WorkItem
  phase : WatchPhase := .next
  advanced : List WorkItem := []
  outcomes : List (WorkItem × Bool) := []
deriving DecidableEq, Repr

/-- The objects that the run takes up: those not in the cursor, as they are in
the store or were staged there, archives first. -/
def beginRun (input : WatchInput) (seen : List (String × String)) (listed : List ListedObject)
    (staged : ListedObject → Option ObjectVersion) : WatchRun :=
  let items := (newObjects seen listed).filterMap (fun object =>
    (staged object).map (fun version =>
      { remoteKey := object.key, object := version, archive := isArchive object.key }))
  { input := input
    pending := items.filter WorkItem.archive ++ items.filter (fun item => !item.archive) }

def WatchRun.startFailed (run : WatchRun) (item : WorkItem) : WatchRun :=
  { run with phase := .next, outcomes := run.outcomes ++ [(item, false)] }

def WatchRun.wentThrough (run : WatchRun) (item : WorkItem) : WatchRun :=
  { run with
    phase := .next
    advanced := run.advanced.filter (fun other => decide (other.remoteKey ≠ item.remoteKey)) ++
      [item]
    outcomes := run.outcomes ++ [(item, true)] }

structure Recorded where
  run : Nat
  input : WatchInput
  item : WorkItem
deriving DecidableEq, Repr

/-- `cursors` holds the map `seen` of each connector; `live` the workflow ids
that Temporal refuses to start again. -/
structure WatchState where
  jobs : List WatchJob
  batches : List WatchBatch
  cursors : Int → List (String × String)
  live : List String
  runs : List WatchRun
  recorded : List Recorded

def WatchState.initial (cursors : Int → List (String × String)) : WatchState :=
  { jobs := [], batches := [], cursors := cursors, live := [], runs := [], recorded := [] }

/-- How an activity ends: answered; committed, and tried again because the
answer was lost; or given up, committed or not. -/
inductive ActivityEnd
  | done
  | retried
  | gaveUp (committed : Bool)
deriving DecidableEq, Repr

inductive ChildStart
  | answered
  | failed (started : Bool)
deriving DecidableEq, Repr

inductive WatchAction
  | begin (input : WatchInput) (listed : List ListedObject)
      (staged : ListedObject → Option ObjectVersion)
  | start (run : Nat) (ends : ActivityEnd)
  | child (run : Nat) (ends : ChildStart)
  | mark (run : Nat) (recorded : Bool)
  | advance (run : Nat) (ends : ActivityEnd)
  | workflowFails (workflowID : String)

def WatchState.setRun (s : WatchState) (index : Nat) (run : WatchRun) : WatchState :=
  { s with runs := s.runs.set index run }

section Steps

variable (env : WatchEnv)

/-- The transaction of `StartWatchObjectJob` or `StartBatch`; `none` where the
location is refused. The registered source is left out. -/
def WatchState.startObject (s : WatchState) (input : WatchInput) (item : WorkItem) :
    Option WatchState :=
  match checkOrgLocation env.allowedBuckets
      { orgID := env.orgID, bucket := item.object.bucket, key := item.object.key } with
  | some _ => none
  | none =>
      if item.archive = true then
        some { s with
          batches := insertNew WatchBatch.workflowID (watchBatch env input item.object) s.batches }
      else
        some { s with
          jobs := insertNew WatchJob.workflowID (watchJob env input item.object) s.jobs }

def WatchState.record (s : WatchState) (index : Nat) (run : WatchRun) : WatchState :=
  { s with
    cursors := Function.update s.cursors run.input.connectorID
      (advanceCursor (s.cursors run.input.connectorID) (run.advanced.map WorkItem.entry))
    recorded := s.recorded ++ run.advanced.map (fun item =>
      { run := index, input := run.input, item := item }) }

def WatchState.startItem (s : WatchState) (index : Nat) (run : WatchRun) (item : WorkItem) :
    ActivityEnd → WatchState
  | .done =>
      match s.startObject env run.input item with
      | none => s.setRun index (run.startFailed item)
      | some started => started.setRun index { run with phase := .startChild item }
  | .retried => (s.startObject env run.input item).getD s
  | .gaveUp committed =>
      (if committed = true then (s.startObject env run.input item).getD s else s).setRun index
        (run.startFailed item)

/-- A start that Temporal refuses counts as progress. -/
def WatchState.startChild (s : WatchState) (index : Nat) (run : WatchRun) (item : WorkItem) :
    ChildStart → WatchState
  | .failed started =>
      { s with
        live := if started = true ∧ item.workflowID env ∉ s.live then
            item.workflowID env :: s.live else s.live }.setRun index (run.startFailed item)
  | .answered =>
      if item.workflowID env ∈ s.live then s.setRun index (run.wentThrough item)
      else
        { s with live := item.workflowID env :: s.live }.setRun index
          { run with phase := .markRunning item }

def WatchState.advanceRun (s : WatchState) (index : Nat) (run : WatchRun) :
    ActivityEnd → WatchState
  | .done => (s.record index run).setRun index { run with phase := .ended }
  | .retried => s.record index run
  | .gaveUp committed =>
      (if committed = true then s.record index run else s).setRun index
        { run with phase := .ended }

def WatchState.step (s : WatchState) : WatchAction → Option WatchState
  | .begin input listed staged =>
      some { s with
        runs := s.runs ++ [beginRun input (s.cursors input.connectorID) listed staged] }
  | .start index ends =>
      match s.runs[index]? with
      | none => none
      | some run =>
          match run.phase, run.pending with
          | .next, item :: rest =>
              match ends with
              | .retried => some (s.startItem env index run item .retried)
              | other => some (s.startItem env index { run with pending := rest } item other)
          | _, _ => none
  | .child index ends =>
      match s.runs[index]? with
      | none => none
      | some run =>
          match run.phase with
          | .startChild item => some (s.startChild env index run item ends)
          | _ => none
  | .mark index recorded =>
      match s.runs[index]? with
      | none => none
      | some run =>
          match run.phase with
          | .markRunning item =>
              if recorded = true then some (s.setRun index (run.wentThrough item))
              else some (s.setRun index { run with phase := .ended })
          | _ => none
  | .advance index ends =>
      match s.runs[index]? with
      | none => none
      | some run =>
          match run.phase, run.pending with
          | .next, [] =>
              if run.advanced.isEmpty = true then
                some (s.setRun index { run with phase := .ended })
              else some (s.advanceRun index run ends)
          | _, _ => none
  | .workflowFails workflowID => some { s with live := s.live.erase workflowID }

end Steps

/-! ### What is claimed -/

/-- A job of the schedule's own template and version exists for the object, or a
batch for an archive. -/
def HasStart (s : WatchState) (input : WatchInput) (item : WorkItem) : Prop :=
  if item.archive = true then ∃ batch ∈ s.batches, batch.object = item.object
  else
    ∃ job ∈ s.jobs, job.object = item.object ∧ job.ruleTemplateID = input.ruleTemplateID ∧
      job.ruleTemplateVersion = input.ruleTemplateVersion

/-- `entries` says that cursors hold nothing but what runs have recorded, and
`throughOnly` that a run records nothing but items whose start went through. -/
structure WatchSound (cursors : Int → List (String × String)) (s : WatchState) : Prop where
  started : ∀ record ∈ s.recorded, HasStart s record.input record.item
  throughOnly : ∀ record ∈ s.recorded, ∃ run, s.runs[record.run]? = some run ∧
    run.input = record.input ∧ (record.item, true) ∈ run.outcomes
  entries : ∀ connector, ∀ entry ∈ s.cursors connector, entry ∈ cursors connector ∨
    ∃ record ∈ s.recorded, record.input.connectorID = connector ∧ record.item.entry = entry
  oneJob : (s.jobs.map (fun job => (job.scheduleID, job.object))).Nodup
  oneExecution : s.live.Nodup

/-- The row that an activity finds under the workflow id of an object is of the
same object, and a job has the template and version of the running schedule. -/
def FindsOwnRow (env : WatchEnv) (s : WatchState) : WatchAction → Prop
  | .start index .done =>
      ∀ run, s.runs[index]? = some run → ∀ item rest, run.pending = item :: rest →
        if item.archive = true then
          ∀ batch ∈ s.batches, batch.workflowID = batchWorkflowID env item.object →
            batch.object = item.object
        else
          ∀ job ∈ s.jobs, job.workflowID = watchWorkflowID env item.object →
            job.object = item.object ∧ job.ruleTemplateID = run.input.ruleTemplateID ∧
              job.ruleTemplateVersion = run.input.ruleTemplateVersion
  | _ => True

instance FindsOwnRow.decidable (env : WatchEnv) (s : WatchState) (action : WatchAction) :
    Decidable (FindsOwnRow env s action) :=
  match action with
  | .start index .done =>
      match found : s.runs[index]? with
      | none => isTrue (by simp [FindsOwnRow, found])
      | some run =>
          match waiting : run.pending with
          | [] => isTrue (by simp [FindsOwnRow, found, waiting])
          | item :: rest =>
              decidable_of_iff
                (if item.archive = true then
                  ∀ batch ∈ s.batches, batch.workflowID = batchWorkflowID env item.object →
                    batch.object = item.object
                else
                  ∀ job ∈ s.jobs, job.workflowID = watchWorkflowID env item.object →
                    job.object = item.object ∧ job.ruleTemplateID = run.input.ruleTemplateID ∧
                      job.ruleTemplateVersion = run.input.ruleTemplateVersion)
                (by simp [FindsOwnRow, found, waiting])
  | .start _ .retried => isTrue trivial
  | .start _ (.gaveUp _) => isTrue trivial
  | .begin _ _ _ => isTrue trivial
  | .child _ _ => isTrue trivial
  | .mark _ _ => isTrue trivial
  | .advance _ _ => isTrue trivial
  | .workflowFails _ => isTrue trivial

structure RunSound (s : WatchState) (run : WatchRun) : Prop where
  remembered : ∀ item ∈ run.advanced, HasStart s run.input item ∧ (item, true) ∈ run.outcomes
  inHand : ∀ item, run.phase = .startChild item ∨ run.phase = .markRunning item →
    HasStart s run.input item

structure WatchInvariant (env : WatchEnv) (cursors : Int → List (String × String))
    (s : WatchState) : Prop extends WatchSound cursors s where
  jobIDs : ∀ job ∈ s.jobs, job.workflowID = watchWorkflowID env job.object
  distinct : (s.jobs.map WatchJob.workflowID).Nodup
  runsSound : ∀ run ∈ s.runs, RunSound s run

structure Grows (before after : WatchState) : Prop where
  jobs : ∀ job ∈ before.jobs, job ∈ after.jobs
  batches : ∀ batch ∈ before.batches, batch ∈ after.batches

variable {input : WatchInput}

section Growth

variable {before after : WatchState}

theorem HasStart.mono {item : WorkItem} (has : HasStart before input item)
    (grows : Grows before after) : HasStart after input item := by
  unfold HasStart at has ⊢
  split
  · rename_i archive
    rw [if_pos archive] at has
    obtain ⟨batch, member, same⟩ := has
    exact ⟨batch, grows.batches batch member, same⟩
  · rename_i plain
    rw [if_neg plain] at has
    obtain ⟨job, member, same⟩ := has
    exact ⟨job, grows.jobs job member, same⟩

theorem RunSound.mono {run : WatchRun} (sound : RunSound before run)
    (grows : Grows before after) : RunSound after run := by
  constructor
  · intro item member
    obtain ⟨has, through⟩ := sound.remembered item member
    exact ⟨has.mono grows, through⟩
  · intro item held
    exact (sound.inHand item held).mono grows

theorem RunSound.of_rows {run : WatchRun} (sound : RunSound before run)
    (jobs : after.jobs = before.jobs) (batches : after.batches = before.batches) :
    RunSound after run := by
  apply sound.mono
  constructor
  · intro job member
    rw [jobs]
    exact member
  · intro batch member
    rw [batches]
    exact member

end Growth

private theorem mem_advanceCursor {seen entries : List (String × String)} {entry : String × String}
    (member : entry ∈ advanceCursor seen entries) : entry ∈ seen ∨ entry ∈ entries := by
  unfold advanceCursor evict at member
  have inside := List.mem_mergeSort.mp (List.mem_of_mem_drop member)
  clear member
  induction entries generalizing seen with
  | nil => exact .inl inside
  | cons first rest ih =>
      rcases ih inside with old | later
      · rcases List.mem_append.mp old with kept | new
        · exact .inl (List.mem_of_mem_filter kept)
        · rw [List.mem_singleton.mp new]
          exact .inr List.mem_cons_self
      · exact .inr (List.mem_cons_of_mem _ later)

section Preservation

variable {env : WatchEnv} {cursors : Int → List (String × String)} {s : WatchState}

theorem WatchInvariant.setRun {index : Nat} {run later : WatchRun}
    (holds : WatchInvariant env cursors s) (found : s.runs[index]? = some run)
    (sameInput : later.input = run.input)
    (keeps : ∀ outcome ∈ run.outcomes, outcome ∈ later.outcomes)
    (sound : RunSound s later) : WatchInvariant env cursors (s.setRun index later) := by
  constructor
  · constructor
    · exact holds.started
    · intro record member
      obtain ⟨owner, atIndex, input, through⟩ := holds.throughOnly record member
      by_cases same : index = record.run
      · rw [same, atIndex] at found
        cases found
        refine ⟨later, ?_, sameInput.trans input, keeps _ through⟩
        change (s.runs.set index later)[record.run]? = some later
        rw [same]
        exact List.getElem?_set_self (List.getElem?_eq_some_iff.mp atIndex).1
      · refine ⟨owner, ?_, input, through⟩
        change (s.runs.set index later)[record.run]? = some owner
        rw [List.getElem?_set_ne same]
        exact atIndex
    · exact holds.entries
    · exact holds.oneJob
    · exact holds.oneExecution
  · exact holds.jobIDs
  · exact holds.distinct
  · intro other member
    rcases List.mem_or_eq_of_mem_set member with old | new
    · exact (holds.runsSound other old).of_rows rfl rfl
    · rw [new]
      exact sound.of_rows rfl rfl

private theorem objects_nodup {jobs : List WatchJob}
    (ids : ∀ job ∈ jobs, job.workflowID = watchWorkflowID env job.object)
    (distinct : (jobs.map WatchJob.workflowID).Nodup) :
    (jobs.map (fun job => (job.scheduleID, job.object))).Nodup := by
  induction jobs with
  | nil => exact List.nodup_nil
  | cons first rest ih =>
      rw [List.map_cons, List.nodup_cons] at distinct
      rw [List.map_cons, List.nodup_cons]
      constructor
      · intro member
        obtain ⟨other, otherMember, same⟩ := List.mem_map.mp member
        apply distinct.1
        have sameObject : other.object = first.object := congrArg Prod.snd same
        rw [ids first List.mem_cons_self, ← sameObject,
          ← ids other (List.mem_cons_of_mem _ otherMember)]
        exact List.mem_map_of_mem otherMember
      · exact ih (fun job member => ids job (List.mem_cons_of_mem _ member)) distinct.2

theorem grows_startObject {item : WorkItem} {after : WatchState}
    (started : s.startObject env input item = some after) : Grows s after := by
  unfold WatchState.startObject at started
  split at started
  · cases started
  · split at started
    · cases started
      constructor
      · intro job member
        exact member
      · intro batch member
        exact mem_insertNew_of_mem member
    · cases started
      constructor
      · intro job member
        exact mem_insertNew_of_mem member
      · intro batch member
        exact member

theorem WatchInvariant.startObject {item : WorkItem} {after : WatchState}
    (holds : WatchInvariant env cursors s) (started : s.startObject env input item = some after) :
    WatchInvariant env cursors after ∧ after.runs = s.runs := by
  have grows := grows_startObject started
  have sound : ∀ run ∈ s.runs, RunSound after run := by
    intro run member
    exact (holds.runsSound run member).mono grows
  have hasStart : ∀ record ∈ s.recorded, HasStart after record.input record.item := by
    intro record member
    exact (holds.started record member).mono grows
  unfold WatchState.startObject at started
  split at started
  · cases started
  · split at started
    · cases started
      exact ⟨{ started := hasStart, throughOnly := holds.throughOnly, entries := holds.entries
               oneJob := holds.oneJob, oneExecution := holds.oneExecution
               jobIDs := holds.jobIDs, distinct := holds.distinct, runsSound := sound }, rfl⟩
    · cases started
      have ids : ∀ job ∈ insertNew WatchJob.workflowID (watchJob env input item.object) s.jobs,
          job.workflowID = watchWorkflowID env job.object := by
        intro job member
        rcases mem_insertNew member with old | new
        · exact holds.jobIDs job old
        · rw [new]
          rfl
      have distinct := @nodup_insertNew _ _ _ WatchJob.workflowID
        (watchJob env input item.object) _ holds.distinct
      exact ⟨{ started := hasStart, throughOnly := holds.throughOnly, entries := holds.entries
               oneJob := objects_nodup ids distinct, oneExecution := holds.oneExecution
               jobIDs := ids, distinct := distinct, runsSound := sound }, rfl⟩

theorem hasStart_of_startObject {item : WorkItem} {after : WatchState}
    (started : s.startObject env input item = some after) (own : if item.archive = true then
        ∀ batch ∈ s.batches, batch.workflowID = batchWorkflowID env item.object →
          batch.object = item.object
      else
        ∀ job ∈ s.jobs, job.workflowID = watchWorkflowID env item.object →
          job.object = item.object ∧ job.ruleTemplateID = input.ruleTemplateID ∧
            job.ruleTemplateVersion = input.ruleTemplateVersion) :
    HasStart after input item := by
  unfold WatchState.startObject at started
  unfold HasStart
  split at started
  · cases started
  · split at started
    · rename_i archive
      cases started
      rw [if_pos archive] at own ⊢
      obtain ⟨batch, member, same⟩ := @exists_insertNew _ _ _ WatchBatch.workflowID
        (watchBatch env input item.object) s.batches
      refine ⟨batch, member, ?_⟩
      rcases mem_insertNew member with old | new
      · exact own batch old same
      · rw [new]
        rfl
    · rename_i plain
      cases started
      rw [if_neg plain] at own ⊢
      obtain ⟨job, member, same⟩ := @exists_insertNew _ _ _ WatchJob.workflowID
        (watchJob env input item.object) s.jobs
      refine ⟨job, member, ?_⟩
      rcases mem_insertNew member with old | new
      · exact own job old same
      · rw [new]
        exact ⟨rfl, rfl, rfl⟩

theorem WatchInvariant.commitOrNot {item : WorkItem} (holds : WatchInvariant env cursors s) :
    WatchInvariant env cursors ((s.startObject env input item).getD s) ∧
      ((s.startObject env input item).getD s).runs = s.runs := by
  cases started : s.startObject env input item with
  | none => exact ⟨holds, rfl⟩
  | some after => exact holds.startObject started

theorem RunSound.startFailed {run : WatchRun} (sound : RunSound s run) (item : WorkItem) :
    RunSound s (run.startFailed item) := by
  constructor
  · intro other member
    obtain ⟨has, through⟩ := sound.remembered other member
    exact ⟨has, List.mem_append_left _ through⟩
  · rintro other (impossible | impossible)
    · cases impossible
    · cases impossible

theorem RunSound.wentThrough {run : WatchRun} {item : WorkItem} (sound : RunSound s run)
    (has : HasStart s run.input item) : RunSound s (run.wentThrough item) := by
  constructor
  · intro other member
    rcases List.mem_append.mp member with old | new
    · obtain ⟨hasOther, through⟩ := sound.remembered other (List.mem_of_mem_filter old)
      exact ⟨hasOther, List.mem_append_left _ through⟩
    · rw [List.mem_singleton.mp new]
      exact ⟨has, List.mem_append_right _ List.mem_cons_self⟩
  · rintro other (impossible | impossible)
    · cases impossible
    · cases impossible

theorem RunSound.enter {run : WatchRun} (sound : RunSound s run) (pending : List WorkItem)
    {phase : WatchPhase}
    (held : ∀ item, phase = .startChild item ∨ phase = .markRunning item →
      HasStart s run.input item) :
    RunSound s { run with pending := pending, phase := phase } where
  remembered := sound.remembered
  inHand := held

theorem WatchInvariant.withLive (holds : WatchInvariant env cursors s) {live : List String}
    (once : live.Nodup) : WatchInvariant env cursors { s with live := live } :=
  { started := holds.started, throughOnly := holds.throughOnly, entries := holds.entries
    oneJob := holds.oneJob, oneExecution := once, jobIDs := holds.jobIDs
    distinct := holds.distinct
    runsSound := fun run member => (holds.runsSound run member).of_rows rfl rfl }

theorem WatchInvariant.record {index : Nat} {run : WatchRun}
    (holds : WatchInvariant env cursors s) (found : s.runs[index]? = some run) :
    WatchInvariant env cursors (s.record index run) := by
  have sound := holds.runsSound run (List.mem_of_getElem? found)
  have origin : ∀ record ∈ (s.record index run).recorded, record ∈ s.recorded ∨
      ∃ item ∈ run.advanced, record = { run := index, input := run.input, item := item } := by
    intro record member
    rcases List.mem_append.mp member with old | new
    · exact .inl old
    · obtain ⟨item, inside, same⟩ := List.mem_map.mp new
      exact .inr ⟨item, inside, same.symm⟩
  constructor
  · constructor
    · intro record member
      rcases origin record member with old | ⟨item, inside, same⟩
      · exact holds.started record old
      · rw [same]
        exact (sound.remembered item inside).1
    · intro record member
      rcases origin record member with old | ⟨item, inside, same⟩
      · exact holds.throughOnly record old
      · rw [same]
        exact ⟨run, found, rfl, (sound.remembered item inside).2⟩
    · intro connector entry member
      change entry ∈ Function.update s.cursors run.input.connectorID _ connector at member
      by_cases same : connector = run.input.connectorID
      · rw [same, Function.update_self] at member
        rcases mem_advanceCursor member with old | new
        · rcases holds.entries run.input.connectorID entry old with first | ⟨record, known, written⟩
          · rw [same]
            exact .inl first
          · rw [same]
            exact .inr ⟨record, List.mem_append_left _ known, written⟩
        · obtain ⟨item, inside, made⟩ := List.mem_map.mp new
          refine .inr ⟨{ run := index, input := run.input, item := item }, ?_, same.symm, made⟩
          exact List.mem_append_right _ (List.mem_map.mpr ⟨item, inside, rfl⟩)
      · rw [Function.update_of_ne same] at member
        rcases holds.entries connector entry member with first | ⟨record, known, written⟩
        · exact .inl first
        · exact .inr ⟨record, List.mem_append_left _ known, written⟩
    · exact holds.oneJob
    · exact holds.oneExecution
  · exact holds.jobIDs
  · exact holds.distinct
  · intro other member
    exact (holds.runsSound other member).of_rows rfl rfl

/-! ### Steps -/

variable {index : Nat} {run : WatchRun} {item : WorkItem}

theorem WatchInvariant.startItem {rest : List WorkItem} {ends : ActivityEnd}
    (holds : WatchInvariant env cursors s) (found : s.runs[index]? = some run)
    (own : ends = .done → if item.archive = true then
        ∀ batch ∈ s.batches, batch.workflowID = batchWorkflowID env item.object →
          batch.object = item.object
      else
        ∀ job ∈ s.jobs, job.workflowID = watchWorkflowID env item.object →
          job.object = item.object ∧ job.ruleTemplateID = run.input.ruleTemplateID ∧
            job.ruleTemplateVersion = run.input.ruleTemplateVersion) :
    WatchInvariant env cursors (s.startItem env index { run with pending := rest } item ends) := by
  have sound := holds.runsSound run (List.mem_of_getElem? found)
  have shortened : RunSound s { run with pending := rest } :=
    { remembered := sound.remembered, inHand := sound.inHand }
  have keeps : ∀ outcome ∈ run.outcomes,
      outcome ∈ (WatchRun.startFailed { run with pending := rest } item).outcomes := by
    intro outcome member
    exact List.mem_append_left _ member
  cases ends with
  | done =>
      unfold WatchState.startItem
      simp only
      cases started : s.startObject env run.input item with
      | none => exact holds.setRun found rfl keeps (shortened.startFailed item)
      | some after =>
          obtain ⟨holdsAfter, sameRuns⟩ := holds.startObject started
          rw [← sameRuns] at found
          have has := hasStart_of_startObject started (own rfl)
          refine holdsAfter.setRun found rfl (fun outcome member => member) ?_
          apply (sound.mono (grows_startObject started)).enter
          rintro other (same | same)
          · cases same
            exact has
          · cases same
  | retried => exact holds.commitOrNot.1
  | gaveUp committed =>
      cases committed with
      | false =>
          change WatchInvariant env cursors (s.setRun index _)
          exact holds.setRun found rfl keeps (shortened.startFailed item)
      | true =>
          obtain ⟨holdsAfter, sameRuns⟩ :=
            @WatchInvariant.commitOrNot run.input env cursors s item holds
          rw [← sameRuns] at found
          have soundAfter := holdsAfter.runsSound run (List.mem_of_getElem? found)
          have shortenedAfter : RunSound ((s.startObject env run.input item).getD s)
              { run with pending := rest } :=
            { remembered := soundAfter.remembered, inHand := soundAfter.inHand }
          exact holdsAfter.setRun found rfl keeps (shortenedAfter.startFailed item)

theorem WatchInvariant.startChild {ends : ChildStart}
    (holds : WatchInvariant env cursors s) (found : s.runs[index]? = some run)
    (held : run.phase = .startChild item) :
    WatchInvariant env cursors (s.startChild env index run item ends) := by
  have sound := holds.runsSound run (List.mem_of_getElem? found)
  have has := sound.inHand item (.inl held)
  have keeps : ∀ (through : Bool), ∀ outcome ∈ run.outcomes,
      outcome ∈ run.outcomes ++ [(item, through)] := by
    intro through outcome member
    exact List.mem_append_left _ member
  unfold WatchState.startChild
  split
  · have once : (if ‹Bool› = true ∧ item.workflowID env ∉ s.live then
        item.workflowID env :: s.live else s.live).Nodup := by
      split
      · rename_i fresh
        exact List.nodup_cons.mpr ⟨fresh.2, holds.oneExecution⟩
      · exact holds.oneExecution
    refine (holds.withLive once).setRun found rfl (keeps false) ?_
    exact (sound.startFailed item).of_rows rfl rfl
  · split
    · exact holds.setRun found rfl (keeps true) (sound.wentThrough has)
    · rename_i fresh
      have once : (item.workflowID env :: s.live).Nodup :=
        List.nodup_cons.mpr ⟨fresh, holds.oneExecution⟩
      refine (holds.withLive once).setRun found rfl (fun outcome member => member) ?_
      have entered : RunSound s { run with phase := .markRunning item } := by
        apply sound.enter run.pending
        rintro other (same | same)
        · cases same
        · cases same
          exact has
      exact entered.of_rows rfl rfl

theorem RunSound.finish (sound : RunSound s run) : RunSound s { run with phase := .ended } := by
  apply sound.enter run.pending
  rintro other (same | same)
  · cases same
  · cases same

theorem WatchInvariant.advanceRun {ends : ActivityEnd} (holds : WatchInvariant env cursors s)
    (found : s.runs[index]? = some run) :
    WatchInvariant env cursors (s.advanceRun index run ends) := by
  have sound := holds.runsSound run (List.mem_of_getElem? found)
  have written := holds.record found
  have finished : WatchInvariant env cursors
      ((s.record index run).setRun index { run with phase := .ended }) :=
    written.setRun found rfl (fun outcome member => member) (sound.finish.of_rows rfl rfl)
  cases ends with
  | done => exact finished
  | retried => exact written
  | gaveUp committed =>
      cases committed with
      | false =>
          change WatchInvariant env cursors (s.setRun index _)
          exact holds.setRun found rfl (fun outcome member => member) sound.finish
      | true => exact finished

theorem WatchInvariant.begin {listed : List ListedObject}
    {staged : ListedObject → Option ObjectVersion} (holds : WatchInvariant env cursors s) :
    WatchInvariant env cursors
      { s with runs := s.runs ++ [beginRun input (s.cursors input.connectorID) listed staged] } := by
  constructor
  · refine ⟨holds.started, ?_, holds.entries, holds.oneJob, holds.oneExecution⟩
    intro record member
    obtain ⟨owner, atIndex, input, through⟩ := holds.throughOnly record member
    refine ⟨owner, ?_, input, through⟩
    exact List.getElem?_append_left (List.getElem?_eq_some_iff.mp atIndex).1 ▸ atIndex
  · exact holds.jobIDs
  · exact holds.distinct
  · intro run member
    rcases List.mem_append.mp member with old | new
    · exact (holds.runsSound run old).of_rows rfl rfl
    · rw [List.mem_singleton.mp new]
      constructor
      · intro item impossible
        cases impossible
      · rintro item (impossible | impossible)
        · cases impossible
        · cases impossible

theorem step_invariant {action : WatchAction} {next : WatchState}
    (own : FindsOwnRow env s action) (holds : WatchInvariant env cursors s)
    (taken : s.step env action = some next) : WatchInvariant env cursors next := by
  cases action with
  | begin input listed staged =>
      cases taken
      exact holds.begin
  | start index ends =>
      simp only [WatchState.step] at taken
      split at taken
      · cases taken
      rename_i run found
      split at taken
      · rename_i item rest phase pending
        split at taken
        · cases taken
          exact holds.commitOrNot.1
        · cases taken
          apply holds.startItem found
          intro done
          subst done
          exact own run found item rest pending
      · cases taken
  | child index ends =>
      simp only [WatchState.step] at taken
      split at taken
      · cases taken
      rename_i run found
      split at taken
      · rename_i item held
        cases taken
        exact holds.startChild found held
      · cases taken
  | mark index recorded =>
      simp only [WatchState.step] at taken
      split at taken
      · cases taken
      rename_i run found
      have sound := holds.runsSound run (List.mem_of_getElem? found)
      split at taken
      · rename_i item held
        split at taken
        · cases taken
          refine holds.setRun found rfl ?_ (sound.wentThrough (sound.inHand item (.inr held)))
          intro outcome member
          exact List.mem_append_left _ member
        · cases taken
          exact holds.setRun found rfl (fun outcome member => member) sound.finish
      · cases taken
  | advance index ends =>
      simp only [WatchState.step] at taken
      split at taken
      · cases taken
      rename_i run found
      split at taken
      · split at taken
        · cases taken
          have sound := holds.runsSound run (List.mem_of_getElem? found)
          exact holds.setRun found rfl (fun outcome member => member) sound.finish
        · cases taken
          exact holds.advanceRun found
      · cases taken
  | workflowFails workflowID =>
      cases taken
      exact holds.withLive (holds.oneExecution.erase workflowID)

end Preservation

theorem initial_invariant (env : WatchEnv) (cursors : Int → List (String × String)) :
    WatchInvariant env cursors (WatchState.initial cursors) where
  started := fun _ impossible => absurd impossible List.not_mem_nil
  throughOnly := fun _ impossible => absurd impossible List.not_mem_nil
  entries := fun _ _ member => .inl member
  oneJob := List.nodup_nil
  oneExecution := List.nodup_nil
  jobIDs := fun _ impossible => absurd impossible List.not_mem_nil
  distinct := List.nodup_nil
  runsSound := fun _ impossible => absurd impossible List.not_mem_nil

/-- In every interleaving of runs whose activities find no row of another
schedule, template or object: what a cursor holds has its own job or batch, and
no object has two jobs. -/
theorem watch_runs_sound (env : WatchEnv) (cursors : Int → List (String × String))
    {actions : List WatchAction} {final : WatchState}
    (ran : run (WatchState.step env) (WatchState.initial cursors) actions = some final)
    (own : Obeys (WatchState.step env) (FindsOwnRow env) (WatchState.initial cursors) actions) :
    WatchSound cursors final := by
  have holds : WatchInvariant env cursors final := by
    apply invariant_of_obeys _ actions (WatchState.initial cursors) final
      (initial_invariant env cursors) own ran
    intro before action next allowed held taken
    exact step_invariant allowed held taken
  exact holds.toWatchSound

def landingEnv : WatchEnv :=
  { sha256Hex := fun text =>
      if text = "1|migration|orgs/1/in/a.csv|e1" then
        "c975f6782cdb18684145dc5930aeb04a83bdbd32eabc079def03612c2b32b676"
      else ""
    orgID := 1
    allowedBuckets := ["migration"] }

def landedObject : ListedObject :=
  { key := "orgs/1/in/a.csv", etag := "e1", size := 12, lastModified := 1700000000 }

def landedItem : WorkItem :=
  { remoteKey := "orgs/1/in/a.csv"
    object := { bucket := "migration", key := "orgs/1/in/a.csv", etag := "e1" }
    archive := false }

def inStore (object : ListedObject) : Option ObjectVersion :=
  some { bucket := "migration", key := object.key, etag := object.etag }

def contactSchedule : WatchInput :=
  { scheduleID := 1, ruleTemplateID := 11, ruleTemplateVersion := 1, connectorID := 5 }

/-- Another template, on a connector whose prefix holds the object too. -/
def accountSchedule : WatchInput :=
  { scheduleID := 2, ruleTemplateID := 12, ruleTemplateVersion := 1, connectorID := 6 }

def landedJob : WatchJob := watchJob landingEnv contactSchedule landedItem.object

def overlappingRuns : List WatchAction :=
  [.begin contactSchedule [landedObject] inStore, .start 0 .done, .child 0 .answered,
    .mark 0 true, .advance 0 .done,
    .begin accountSchedule [landedObject] inStore, .start 1 .done, .child 1 .answered,
    .advance 1 .done]

theorem other_schedules_job_counts :
    ∃ final, run (WatchState.step landingEnv) (WatchState.initial (fun _ => []))
        overlappingRuns = some final ∧
      final.jobs = [landedJob] ∧
      ({ run := 1, input := accountSchedule, item := landedItem } : Recorded) ∈ final.recorded ∧
      ¬WatchSound (fun _ => []) final := by
  have evaluated : (run (WatchState.step landingEnv) (WatchState.initial (fun _ => []))
      overlappingRuns).map (fun final => (final.jobs, final.recorded)) =
        some ([landedJob],
          [{ run := 0, input := contactSchedule, item := landedItem },
            { run := 1, input := accountSchedule, item := landedItem }]) := by
    decide +kernel
  obtain ⟨final, ran, same⟩ := Option.map_eq_some_iff.mp evaluated
  have jobs : final.jobs = [landedJob] := congrArg Prod.fst same
  have entries : final.recorded =
      [{ run := 0, input := contactSchedule, item := landedItem },
        { run := 1, input := accountSchedule, item := landedItem }] := congrArg Prod.snd same
  have member : ({ run := 1, input := accountSchedule, item := landedItem } : Recorded) ∈
      final.recorded := by
    rw [entries]
    exact List.mem_cons_of_mem _ List.mem_cons_self
  refine ⟨final, ran, jobs, member, ?_⟩
  intro sound
  have has := sound.started _ member
  unfold HasStart at has
  rw [if_neg (by decide), jobs] at has
  obtain ⟨job, inside, _, template, _⟩ := has
  rw [List.mem_singleton.mp inside] at template
  revert template
  decide

def repeatedRuns : List WatchAction :=
  [.begin contactSchedule [landedObject] inStore, .start 0 .done, .child 0 .answered,
    .mark 0 false,
    .begin contactSchedule [landedObject] inStore, .start 1 .done, .child 1 .answered,
    .advance 1 .done]

theorem repeated_run_records_own_job :
    ∃ final, run (WatchState.step landingEnv) (WatchState.initial (fun _ => [])) repeatedRuns =
        some final ∧
      final.recorded = [{ run := 1, input := contactSchedule, item := landedItem }] ∧
      WatchSound (fun _ => []) final := by
  have evaluated : (run (WatchState.step landingEnv) (WatchState.initial (fun _ => []))
      repeatedRuns).map WatchState.recorded =
        some [{ run := 1, input := contactSchedule, item := landedItem }] := by
    decide +kernel
  obtain ⟨final, ran, entries⟩ := Option.map_eq_some_iff.mp evaluated
  refine ⟨final, ran, entries, watch_runs_sound landingEnv (fun _ => []) ran ?_⟩
  decide +kernel

end MigrationPlatform.Watch
