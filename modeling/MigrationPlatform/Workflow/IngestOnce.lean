/-
Exactly-once ingest over a chain of runs.

Nothing is assumed of the connector: a batch passes the continuity check or
ends the job. Of a row it matters only that an outcome is counted once, and
that a row without one ends the batch. Both are said once for a whole round;
the invariant of the chain follows from its four outcomes.
-/

import MigrationPlatform.Workflow.MigrationChain

namespace MigrationPlatform.Workflow

open MigrationPlatform.Connectors MigrationPlatform.Delivery

def MigrationWorkflowResult.total (result : MigrationWorkflowResult) : Int :=
  result.processed + result.failed + result.unresolved

structure CountsOn (earlier later : MigrationWorkflowResult) (rows : Nat) : Prop where
  total : later.total = earlier.total + rows
  processed : earlier.processed ≤ later.processed
  failed : earlier.failed ≤ later.failed
  unresolved : earlier.unresolved ≤ later.unresolved

theorem CountsOn.refl (result : MigrationWorkflowResult) : CountsOn result result 0 := by
  refine ⟨?_, Int.le_refl _, Int.le_refl _, Int.le_refl _⟩
  omega

theorem CountsOn.trans {first second third : MigrationWorkflowResult} {rows more : Nat}
    (before : CountsOn first second rows) (after : CountsOn second third more) :
    CountsOn first third (rows + more) := by
  constructor
  · have earlier := before.total
    have later := after.total
    omega
  · exact Int.le_trans before.processed after.processed
  · exact Int.le_trans before.failed after.failed
  · exact Int.le_trans before.unresolved after.unresolved

private theorem countsOn_count (result : MigrationWorkflowResult) (status : StepStatus) :
    CountsOn result (result.count status) 1 := by
  cases status with
  | succeeded =>
      constructor <;> simp only [MigrationWorkflowResult.count, MigrationWorkflowResult.total] <;>
        omega
  | failed =>
      constructor <;> simp only [MigrationWorkflowResult.count, MigrationWorkflowResult.total] <;>
        omega
  | unresolved =>
      constructor <;> simp only [MigrationWorkflowResult.count, MigrationWorkflowResult.total] <;>
        omega

section Batch

variable {sha256Hex : String → String} {describe : ActivityError → String}

private theorem processOneRow_counts {maxAttempts : Nat} {jobID : Int} {row : Row}
    {steps : List Step}
    {run : RowRun} {envs : List StepEnv} {persist : Option String}
    {result : MigrationWorkflowResult} {processed : RowExecution}
    (ran : processOneRow sha256Hex describe maxAttempts jobID row steps run envs persist result =
      some processed) (went : processed.error = none) :
    CountsOn result processed.result 1 := by
  obtain ⟨chain, _, ended⟩ := Option.map_eq_some_iff.mp ran
  subst ended
  cases error : chain.error with
  | some message =>
      simp only [error] at went
      cases went
  | none => exact countsOn_count result chain.status

theorem processRows_hands {template : LoadTemplateOutput} {jobID : Int} {batch : BatchEnd}
    (rows : List Row) :
    ∀ (envs : List RowEnv) (result : MigrationWorkflowResult),
      processRows sha256Hex describe template jobID rows envs result = some batch →
      batch.handed <+: rows.map Row.index ∧
        (batch.error = none →
          batch.handed = rows.map Row.index ∧ CountsOn result batch.result rows.length) := by
  induction rows generalizing batch with
  | nil =>
      intro envs result ran
      cases ran
      exact ⟨List.prefix_rfl, fun _ => ⟨rfl, CountsOn.refl result⟩⟩
  | cons row rest ih =>
      intro envs result ran
      cases envs with
      | nil => cases ran
      | cons env later =>
          unfold processRows at ran
          split at ran
          · cases ran
          · rename_i processed processing
            split at ran
            · cases ran
              refine ⟨?_, fun went => nomatch went⟩
              exact ⟨rest.map Row.index, rfl⟩
            · rename_i went
              obtain ⟨tail, ranRest, ended⟩ := Option.map_eq_some_iff.mp ran
              subst ended
              obtain ⟨handed, counted⟩ := ih later processed.result ranRest
              refine ⟨List.cons_prefix_cons.mpr ⟨rfl, handed⟩, ?_⟩
              intro clean
              obtain ⟨all, counts⟩ := counted clean
              refine ⟨congrArg (row.index :: ·) all, ?_⟩
              have one := processOneRow_counts processing went
              have both := one.trans counts
              rw [List.length_cons, Nat.add_comm rest.length 1]
              exact both

end Batch

private theorem map_index_zipWith (rows : List Row) :
    ∀ out : List Data, out.length = rows.length →
      (List.zipWith (fun row data => { row with data := data }) rows out).map Row.index =
        rows.map Row.index := by
  induction rows with
  | nil =>
      intro out _same
      rfl
  | cons row rest ih =>
      intro out same
      cases out with
      | nil => cases same
      | cons data later =>
          rw [List.zipWith_cons_cons, List.map_cons, List.map_cons, ih later (Nat.succ.inj same)]

theorem preprocessRows_index {hasPreprocess : Bool} {rows out : List Row}
    {batch : Except String (List Data)}
    (preprocessed : preprocessRows hasPreprocess rows batch = .ok out) :
    out.map Row.index = rows.map Row.index := by
  unfold preprocessRows at preprocessed
  split at preprocessed
  · cases preprocessed
    rfl
  · split at preprocessed
    · cases preprocessed
    · split at preprocessed
      · cases preprocessed
      · rename_i data length
        cases preprocessed
        exact map_index_zipWith rows data (not_not.mp length)

theorem indexesFrom_of_isPrefix {next : Int} {count : Nat} {part : List Int}
    (within : part <+: indexesFrom next count) : part = indexesFrom next part.length := by
  induction part generalizing next count with
  | nil => rfl
  | cons first rest ih =>
      cases count with
      | zero => cases List.prefix_nil.mp within
      | succ count =>
          obtain ⟨same, tail⟩ := List.cons_prefix_cons.mp within
          rw [List.length_cons, indexesFrom, ← ih tail, same]

def MigrationRun.advanced (run : MigrationRun) (out : IngestOutput)
    (result : MigrationWorkflowResult) : MigrationRun :=
  { run with
    cp := run.cp.advanced out result
    result := result
    batchIdx := run.batchIdx + 1 }

def MigrationRun.polled (run : MigrationRun) (out : IngestOutput) : MigrationRun :=
  { run with cp := { run.cp with offset := out.newOffset } }

inductive RoundOutcome (run : MigrationRun) (env : RoundEnv) : List Int → RoundEnd → Prop
  | stopped (handed : List Int) (err : MigrationError)
      (consecutive : handed = indexesFrom run.cp.nextRowIndex handed.length) :
      RoundOutcome run env handed (.failed err)
  | polled (out : IngestOutput) (ingested : env.ingest = .ok out) (pending : out.pending = true) :
      RoundOutcome run env [] (.goesOn (run.polled out))
  | polledContinued (out : IngestOutput) (ingested : env.ingest = .ok out)
      (pending : out.pending = true) :
      RoundOutcome run env [] (.continued (run.polled out).cp true)
  | processed (out : IngestOutput) (result : MigrationWorkflowResult)
      (ingested : env.ingest = .ok out) (ready : out.pending = false)
      (items : out.newOffset.items = run.cp.nextRowIndex + out.rows.length)
      (counted : CountsOn run.result result out.rows.length) :
      RoundOutcome run env (indexesFrom run.cp.nextRowIndex out.rows.length)
        (afterBatch true env out (run.advanced out result))

section Outcome

variable {sha256Hex : String → String} {describe : ActivityError → String}

theorem round_outcome {jobID : Int} {run : MigrationRun} {env : RoundEnv} {handed : List Int}
    {ended : RoundEnd}
    (taken : round sha256Hex describe true jobID run env = some (handed, ended)) :
    RoundOutcome run env handed ended := by
  unfold round at taken
  split at taken
  · cases taken
    exact .stopped [] _ rfl
  · split at taken
    · cases taken
      exact .stopped [] _ rfl
    · rename_i out ingested
      split at taken
      · rename_i pending
        split at taken
        · cases taken
          exact .stopped [] _ rfl
        · split at taken
          · cases taken
            exact .polledContinued out ingested pending
          · cases taken
            exact .polled out ingested pending
      · rename_i ready
        split at taken
        · cases taken
          exact .stopped [] _ rfl
        · rename_i passed
          obtain ⟨placed, items, _⟩ := continuous_of_check passed
          split at taken
          · cases taken
            exact .stopped [] _ rfl
          · rename_i rows preprocessed
            obtain ⟨batch, processing, ending⟩ := Option.map_eq_some_iff.mp taken
            have indexes := (preprocessRows_index preprocessed).trans placed
            have length : rows.length = out.rows.length := by
              have same := congrArg List.length (preprocessRows_index preprocessed)
              rwa [List.length_map, List.length_map] at same
            obtain ⟨part, counted⟩ := processRows_hands rows env.rows run.result processing
            rw [indexes] at part counted
            split at ending
            · cases ending
              exact .stopped _ _ (indexesFrom_of_isPrefix part)
            · rename_i clean
              cases ending
              obtain ⟨all, counts⟩ := counted clean
              rw [length] at counts
              rw [all]
              exact .processed out batch.result ingested (Bool.eq_false_iff.mpr ready) items
                counts

end Outcome

/-- The checkpoint stands behind the first `count` rows and counts their outcomes. -/
structure Checkpoint.StandsAt (c : Checkpoint) (count : Nat) : Prop where
  version : c.version = checkpointVersion
  next : c.nextRowIndex = count
  total : c.totals.total = count
  processed : 0 ≤ c.processed
  failed : 0 ≤ c.failed
  unresolved : 0 ≤ c.unresolved

theorem Checkpoint.StandsAt.polled {c : Checkpoint} {count : Nat} (stands : c.StandsAt count)
    (offset : Offset) : Checkpoint.StandsAt { c with offset := offset } count :=
  ⟨stands.version, stands.next, stands.total, stands.processed, stands.failed, stands.unresolved⟩

theorem Checkpoint.StandsAt.advanced {c : Checkpoint} {count : Nat} (stands : c.StandsAt count)
    {out : IngestOutput} {result : MigrationWorkflowResult}
    (items : out.newOffset.items = c.nextRowIndex + out.rows.length)
    (counted : CountsOn c.totals result out.rows.length) :
    (c.advanced out result).StandsAt (count + out.rows.length) := by
  refine ⟨stands.version, ?_, ?_, ?_, ?_, ?_⟩
  · change out.newOffset.items = _
    rw [items, stands.next]
    omega
  · change result.total = _
    rw [counted.total, stands.total]
    omega
  · exact Int.le_trans stands.processed counted.processed
  · exact Int.le_trans stands.failed counted.failed
  · exact Int.le_trans stands.unresolved counted.unresolved

theorem Checkpoint.StandsAt.counted {c : Checkpoint} {count : Nat} (stands : c.StandsAt count) :
    c.processed + c.failed + c.unresolved = c.nextRowIndex := by
  rw [stands.next]
  exact stands.total

theorem Checkpoint.StandsAt.valid {c : Checkpoint} {count : Nat} (stands : c.StandsAt count)
    (items : c.offset.items = c.nextRowIndex) : c.validate = none := by
  apply validate_eq_none.mpr
  have next := stands.next
  refine ⟨stands.version, ⟨?_, stands.processed, stands.failed, stands.unresolved⟩, items, ?_⟩
  · omega
  · exact Int.le_of_eq stands.counted

/-- A fresh chain has no checkpoint, which stands for the one at the first row. -/
def MigrationWorkflowInput.position (input : MigrationWorkflowInput) : Checkpoint :=
  input.checkpoint.getD { version := checkpointVersion }

structure MigrationRun.StandsAt (run : MigrationRun) (count : Nat) : Prop where
  cp : run.cp.StandsAt count
  result : run.result = run.cp.totals

def ChainState.Stands (s : ChainState) : Prop :=
  match s.phase with
  | .starting => s.input.position.StandsAt s.handed.length
  | .looping run => run.StandsAt s.handed.length
  | .completed run => run.StandsAt s.handed.length
  | .failed _ => True

/-- A hand-over counts every row before it; behind a batch the next run accepts it. -/
structure HandOver.Sound (handover : HandOver) : Prop where
  counted : handover.cp.processed + handover.cp.failed + handover.cp.unresolved =
    handover.cp.nextRowIndex
  valid : handover.polled = false → handover.cp.validate = none

structure IngestSound (s : ChainState) : Prop where
  handed : s.handed = indexesFrom 0 s.handed.length
  noLegacy : s.input.legacyOffset = none
  stands : s.Stands
  handovers : ∀ handover ∈ s.handovers, handover.Sound

theorem IngestSound.run_stands {s : ChainState} {run : MigrationRun} (sound : IngestSound s)
    (phase : s.phase = .looping run ∨ s.phase = .completed run) :
    run.StandsAt s.handed.length := by
  have stands := sound.stands
  unfold ChainState.Stands at stands
  rcases phase with looping | completed
  · rw [looping] at stands
    exact stands
  · rw [completed] at stands
    exact stands

theorem IngestSound.fresh {input : MigrationWorkflowInput} (fresh : input.checkpoint = none)
    (noLegacy : input.legacyOffset = none) : IngestSound { input := input } := by
  refine ⟨rfl, noLegacy, ?_, fun _ member => nomatch member⟩
  change input.position.StandsAt 0
  unfold MigrationWorkflowInput.position
  rw [fresh]
  exact ⟨rfl, rfl, rfl, Int.le_refl _, Int.le_refl _, Int.le_refl _⟩

private theorem startingCheckpoint_position {input : MigrationWorkflowInput} {c : Checkpoint}
    (noLegacy : input.legacyOffset = none) (started : startingCheckpoint input = .ok c) :
    c = input.position := by
  unfold startingCheckpoint at started
  unfold MigrationWorkflowInput.position
  cases given : input.checkpoint with
  | none =>
      rw [given, noLegacy] at started
      cases started
      rfl
  | some handed =>
      rw [given] at started
      simp only at started
      split at started
      · cases started
      · cases started
        rfl

theorem startRun_cases {input : MigrationWorkflowInput} (noLegacy : input.legacyOffset = none)
    (licensed : Option String) (loaded : Except String LoadTemplateOutput) :
    (∃ err, startRun input licensed loaded = .failed err) ∨
      ∃ template, startRun input licensed loaded =
        .looping { template := template, cp := input.position, result := input.position.totals } := by
  unfold startRun
  cases licensed with
  | some message => exact Or.inl ⟨_, rfl⟩
  | none =>
      cases loaded with
      | error message => exact Or.inl ⟨_, rfl⟩
      | ok template =>
          cases started : startingCheckpoint input with
          | error err => exact Or.inl ⟨err, rfl⟩
          | ok c =>
              rw [startingCheckpoint_position noLegacy started]
              exact Or.inr ⟨template, rfl⟩

theorem IngestSound.started {s : ChainState} (sound : IngestSound s) (starting : s.phase = .starting)
    (licensed : Option String) (loaded : Except String LoadTemplateOutput) :
    IngestSound { s with phase := startRun s.input licensed loaded } := by
  have stands := sound.stands
  unfold ChainState.Stands at stands
  rw [starting] at stands
  rcases startRun_cases sound.noLegacy licensed loaded with ⟨err, failed⟩ | ⟨template, runs⟩
  · rw [failed]
    exact ⟨sound.handed, sound.noLegacy, trivial, sound.handovers⟩
  · rw [runs]
    exact ⟨sound.handed, sound.noLegacy, ⟨stands, rfl⟩, sound.handovers⟩

theorem handed_append {handed part : List Int} {next : Int}
    (before : handed = indexesFrom 0 handed.length) (position : next = handed.length)
    (consecutive : part = indexesFrom next part.length) :
    handed ++ part = indexesFrom 0 (handed ++ part).length := by
  rw [List.length_append, ← indexesFrom_append, ← before, Int.zero_add, ← position, ← consecutive]

theorem IngestSound.handovers_append {s : ChainState} (sound : IngestSound s)
    {newest : HandOver} (added : newest.Sound) :
    ∀ handover ∈ s.handovers ++ [newest], handover.Sound := by
  intro handover member
  rcases List.mem_append.mp member with earlier | last
  · exact sound.handovers handover earlier
  · cases List.mem_singleton.mp last
    exact added

theorem IngestSound.processed {s : ChainState} {run next : MigrationRun} {part : List Int}
    (sound : IngestSound s) (consecutive : s.handed ++ part = indexesFrom 0 (s.handed ++ part).length)
    (stands : next.StandsAt (s.handed ++ part).length)
    (items : next.cp.offset.items = next.cp.nextRowIndex) (env : RoundEnv) (out : IngestOutput) :
    IngestSound (s.after run part (afterBatch true env out next)) := by
  unfold afterBatch
  rw [if_pos (rfl : true = true)]
  split_ifs with done handsOver
  · exact ⟨consecutive, sound.noLegacy, stands, sound.handovers⟩
  · refine ⟨consecutive, rfl, stands.cp, ?_⟩
    exact sound.handovers_append ⟨stands.cp.counted, fun _ => stands.cp.valid items⟩
  · exact ⟨consecutive, sound.noLegacy, stands, sound.handovers⟩

theorem IngestSound.after {s : ChainState} {run : MigrationRun} (sound : IngestSound s)
    (looping : s.phase = .looping run) {env : RoundEnv} {handed : List Int} {ended : RoundEnd}
    (outcome : RoundOutcome run env handed ended) : IngestSound (s.after run handed ended) := by
  have stands := sound.run_stands (Or.inl looping)
  cases outcome with
  | stopped handed err consecutive =>
      exact ⟨handed_append sound.handed stands.cp.next consecutive, sound.noLegacy, trivial,
        sound.handovers⟩
  | polled out ingested pending =>
      have moved : (run.polled out).StandsAt s.handed.length :=
        ⟨stands.cp.polled out.newOffset, stands.result⟩
      rw [← List.append_nil s.handed] at moved
      refine ⟨?_, sound.noLegacy, moved, sound.handovers⟩
      exact handed_append sound.handed rfl rfl
  | polledContinued out ingested pending =>
      have moved := stands.cp.polled out.newOffset
      rw [← List.append_nil s.handed] at moved
      refine ⟨?_, rfl, moved, ?_⟩
      · exact handed_append sound.handed rfl rfl
      · exact sound.handovers_append ⟨moved.counted, nofun⟩
  | processed out result ingested ready items counted =>
      have length := indexesFrom_length run.cp.nextRowIndex out.rows.length
      have consecutive : indexesFrom run.cp.nextRowIndex out.rows.length =
          indexesFrom run.cp.nextRowIndex
            (indexesFrom run.cp.nextRowIndex out.rows.length).length := by
        rw [length]
      rw [stands.result] at counted
      refine sound.processed (handed_append sound.handed stands.cp.next consecutive) ?_ rfl env out
      rw [List.length_append, length]
      exact ⟨stands.cp.advanced items counted, rfl⟩

section Chain

variable {sha256Hex : String → String} {describe : ActivityError → String}

theorem chain_step {s next : ChainState} {action : ChainAction}
    (taken : s.step sha256Hex describe true action = some next) :
    (∃ licensed loaded, action = .start licensed loaded ∧ s.phase = .starting ∧
        next = { s with phase := startRun s.input licensed loaded }) ∨
      ∃ env run handed ended, action = .round env ∧ s.phase = .looping run ∧
        RoundOutcome run env handed ended ∧ next = s.after run handed ended := by
  unfold ChainState.step at taken
  cases action with
  | start licensed loaded =>
      simp only at taken
      split at taken
      · rename_i starting
        cases taken
        exact Or.inl ⟨licensed, loaded, rfl, starting, rfl⟩
      · cases taken
  | round env =>
      simp only at taken
      split at taken
      · rename_i run looping
        obtain ⟨⟨handed, ended⟩, went, rfl⟩ := Option.map_eq_some_iff.mp taken
        exact Or.inr ⟨env, run, handed, ended, rfl, looping, round_outcome went, rfl⟩
      · cases taken

theorem ingestSound_step {s next : ChainState} {action : ChainAction} (sound : IngestSound s)
    (taken : s.step sha256Hex describe true action = some next) : IngestSound next := by
  rcases chain_step taken with ⟨licensed, loaded, _, starting, rfl⟩ |
    ⟨env, run, handed, ended, _, looping, outcome, rfl⟩
  · exact sound.started starting licensed loaded
  · exact sound.after looping outcome

end Chain

/-! ### Sources -/

/-- What a source of `count` rows can return to a call at `offset`. -/
structure SourceResult (count : Nat) (offset : Offset) (out : IngestOutput) : Prop where
  rows : out.rows.map Row.index = indexesFrom offset.items out.rows.length
  items : out.newOffset.items = offset.items + out.rows.length
  within : out.newOffset.items ≤ count
  pending : out.pending = true → out.rows = []
  done : out.done = true → out.newOffset.items = count

/-- The results of `Ingest` are those of a source of `count` rows, wherever
that source has rows or ends. -/
def FromSource (count : Nat) (s : ChainState) : ChainAction → Prop
  | .start _ _ => True
  | .round env =>
      ∀ run out, s.phase = .looping run → env.ingest = .ok out → 0 ≤ run.cp.offset.items →
        run.cp.offset.items ≤ count → SourceResult count run.cp.offset out

def Checkpoint.Within (count : Nat) (c : Checkpoint) : Prop :=
  c.offset.items = c.nextRowIndex ∧ c.nextRowIndex ≤ count

def ChainState.Within (count : Nat) (s : ChainState) : Prop :=
  match s.phase with
  | .starting => s.input.position.Within count
  | .looping run => run.cp.Within count
  | .completed run => run.cp.nextRowIndex = count
  | .failed _ => True

section Source

variable {sha256Hex : String → String} {describe : ActivityError → String} {count : Nat}

theorem within_after {s : ChainState} {run : MigrationRun} (sound : IngestSound s)
    (within : s.Within count) (looping : s.phase = .looping run) {env : RoundEnv}
    (source : FromSource count s (.round env)) {handed : List Int} {ended : RoundEnd}
    (outcome : RoundOutcome run env handed ended) : (s.after run handed ended).Within count := by
  have inside : run.cp.Within count := by
    unfold ChainState.Within at within
    rw [looping] at within
    exact within
  have stands := sound.run_stands (Or.inl looping)
  have position := inside.1
  have limit := inside.2
  have next := stands.cp.next
  have returned : ∀ out, env.ingest = .ok out → SourceResult count run.cp.offset out := by
    intro out ingested
    exact source run out looping ingested (by omega) (by omega)
  have kept : ∀ out, env.ingest = .ok out → out.pending = true →
      (run.polled out).cp.Within count := by
    intro out ingested pending
    have result := returned out ingested
    have items := result.items
    rw [result.pending pending, position] at items
    exact ⟨items.trans (Int.add_zero _), limit⟩
  cases outcome with
  | stopped handed err consecutive => trivial
  | polled out ingested pending => exact kept out ingested pending
  | polledContinued out ingested pending => exact kept out ingested pending
  | processed out result ingested ready items counted =>
      have read := returned out ingested
      unfold afterBatch
      rw [if_pos (rfl : true = true)]
      split_ifs with done handsOver
      · exact read.done done
      · exact ⟨rfl, read.within⟩
      · exact ⟨rfl, read.within⟩

theorem within_step {s next : ChainState} {action : ChainAction}
    (source : FromSource count s action) (sound : IngestSound s) (within : s.Within count)
    (taken : s.step sha256Hex describe true action = some next) : next.Within count := by
  rcases chain_step taken with ⟨licensed, loaded, _, starting, rfl⟩ |
    ⟨env, run, handed, ended, rfl, looping, outcome, rfl⟩
  · unfold ChainState.Within at within
    rw [starting] at within
    rcases startRun_cases sound.noLegacy licensed loaded with ⟨err, failed⟩ | ⟨template, runs⟩
    · rw [failed]
      trivial
    · rw [runs]
      exact within
  · exact within_after sound within looping source outcome

end Source

structure IngestedOnce (s : ChainState) : Prop where
  handed : s.handed = indexesFrom 0 s.handed.length
  counted : ∀ run, s.phase = .looping run ∨ s.phase = .completed run →
    run.cp.processed + run.cp.failed + run.cp.unresolved = run.cp.nextRowIndex ∧
      run.result = run.cp.totals ∧ run.cp.nextRowIndex = s.handed.length
  handovers : ∀ handover ∈ s.handovers, handover.Sound

theorem IngestSound.once {s : ChainState} (sound : IngestSound s) : IngestedOnce s := by
  refine ⟨sound.handed, ?_, sound.handovers⟩
  intro run phase
  have stands := sound.run_stands phase
  exact ⟨stands.cp.counted, stands.result, stands.cp.next⟩

section Completed

variable {sha256Hex : String → String} {describe : ActivityError → String}
variable {input : MigrationWorkflowInput} {actions : List ChainAction} {s : ChainState}

theorem ingestSound_run (fresh : input.checkpoint = none) (noLegacy : input.legacyOffset = none)
    (ran : GuardedRuns.run (ChainState.step sha256Hex describe true) { input := input } actions =
      some s) : IngestSound s :=
  GuardedRuns.invariant_of_run (fun _ _ _ => ingestSound_step) actions _ s
    (IngestSound.fresh fresh noLegacy) ran

theorem handed_of_completed {count : Nat} {run : MigrationRun} (fresh : input.checkpoint = none)
    (noLegacy : input.legacyOffset = none)
    (source : GuardedRuns.Obeys (ChainState.step sha256Hex describe true) (FromSource count)
      { input := input } actions)
    (ran : GuardedRuns.run (ChainState.step sha256Hex describe true) { input := input } actions =
      some s)
    (completed : s.phase = .completed run) : s.handed = indexesFrom 0 count := by
  have initial : ChainState.Within count { input := input } := by
    change input.position.Within count
    unfold MigrationWorkflowInput.position
    rw [fresh]
    exact ⟨rfl, Int.natCast_nonneg count⟩
  have preserved : ∀ before action next, FromSource count before action →
      IngestSound before ∧ before.Within count →
      before.step sha256Hex describe true action = some next →
      IngestSound next ∧ next.Within count := by
    intro before action next allowed holds taken
    exact ⟨ingestSound_step holds.1 taken, within_step allowed holds.1 holds.2 taken⟩
  obtain ⟨sound, within⟩ := GuardedRuns.invariant_of_obeys preserved actions _ s
    ⟨IngestSound.fresh fresh noLegacy, initial⟩ source ran
  unfold ChainState.Within at within
  rw [completed] at within
  have position := (sound.run_stands (Or.inr completed)).cp.next
  have length : s.handed.length = count := by
    simp only at within
    omega
  rw [← length]
  exact sound.handed

end Completed

theorem rows_ingested_exactly_once (sha256Hex : String → String)
    (describe : ActivityError → String) (input : MigrationWorkflowInput)
    (fresh : input.checkpoint = none) (noLegacy : input.legacyOffset = none)
    (actions : List ChainAction) (s : ChainState)
    (ran : GuardedRuns.run (ChainState.step sha256Hex describe true) { input := input } actions =
      some s) :
    IngestedOnce s ∧
      ∀ count,
        GuardedRuns.Obeys (ChainState.step sha256Hex describe true) (FromSource count)
          { input := input } actions →
        ∀ run, s.phase = .completed run → s.handed = indexesFrom 0 count := by
  refine ⟨(ingestSound_run fresh noLegacy ran).once, ?_⟩
  intro count source run completed
  exact handed_of_completed fresh noLegacy source ran completed

def createTemplate : LoadTemplateOutput :=
  { version := 4, maxAttempts := 1, steps := [createStep] }

def calm : HistorySnapshot :=
  { events := 40, bytes := 9000, suggested := false, lastEvents := 20, lastBytes := 4000 }

def ingestRound (out : IngestOutput) (history : HistorySnapshot) (statuses : List Nat) : RoundEnv :=
  { ingest := .ok out
    history := history
    preprocess := .ok []
    rows := statuses.map (fun status => { steps := [{ attempts := [answered "run:1:1" none status] }] }) }

/-- A source of three rows that is pending at first. The first batch hands over,
and the three rows succeed, fail and stay unresolved. -/
def threeRows : List ChainAction :=
  [.start none (.ok createTemplate),
    .round (ingestRound { pending := true, newOffset := { salesforceJobID := "750" } } calm []),
    .round (ingestRound
      { rows := [{ index := 0, data := [] }, { index := 1, data := [] }]
        newOffset := { items := 2, salesforceJobID := "750" } }
      { calm with suggested := true } [201, 404]),
    .start none (.ok createTemplate),
    .round (ingestRound
      { rows := [{ index := 2, data := [] }]
        newOffset := { items := 3, salesforceJobID := "750" }, done := true } calm [503])]

private theorem three_rows_from_source :
    GuardedRuns.Obeys (ChainState.step createSha256 describeError true) (FromSource 3)
      { input := { jobID := 7 } } threeRows := by
  refine ⟨trivial, ?_, ?_, trivial, ?_, trivial⟩
  · intro run out looping ingested _ _
    cases looping
    cases ingested
    exact ⟨rfl, rfl, by decide, fun _ => rfl, nofun⟩
  · intro run out looping ingested _ _
    cases looping
    cases ingested
    exact ⟨rfl, rfl, by decide, nofun, nofun⟩
  · intro run out looping ingested _ _
    cases looping
    cases ingested
    exact ⟨rfl, rfl, by decide, nofun, fun _ => rfl⟩

theorem three_rows_ingested_once :
    ∃ s run, GuardedRuns.run (ChainState.step createSha256 describeError true)
        { input := { jobID := 7 } } threeRows = some s ∧
      s.phase = .completed run ∧ run.result = { processed := 1, failed := 1, unresolved := 1 } ∧
      IngestedOnce s ∧ s.handed = [0, 1, 2] := by
  refine ⟨_, _, rfl, rfl, rfl, ?_⟩
  have once := rows_ingested_exactly_once createSha256 describeError { jobID := 7 } rfl rfl
    threeRows _ rfl
  exact ⟨once.1, once.2 3 three_rows_from_source _ rfl⟩

end MigrationPlatform.Workflow
