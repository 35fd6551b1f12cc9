/-
The recorded outcome of a job against its rows.

A job's main workflow and its retries persist rows one by one, and `finishJob`
records the counts of the rows with the status derived from them. Counting and
recording are two statements, an attempt of `FinalizeJob` may be executed any
time after its count, and a workflow may end at any point: an activity that
fails for good, a termination and the normal end are one action. The
reconciler counts and records whenever it likes, for non-terminal jobs only.
-/

import MigrationPlatform.Foundation.GuardedRuns
import MigrationPlatform.Lifecycle.JobStatus
import MigrationPlatform.Workflow.RowStore

namespace MigrationPlatform.Lifecycle

open GuardedRuns MigrationPlatform.Workflow

def rowsWith (status : StepStatus) (rows : List StoredRow) : Nat :=
  rows.countP (fun row => decide (row.status = status))

def countRows (rows : List StoredRow) : Totals :=
  { processed := rowsWith .succeeded rows
    failed := rowsWith .failed rows
    unresolved := rowsWith .unresolved rows
    total := rows.length }

inductive Party
  | main
  | retry
deriving DecidableEq, Repr

inductive WorkflowPhase
  | absent
  | working
  | finishing (outcome : Outcome)
  | ended
deriving DecidableEq, Repr

def WorkflowPhase.isRunning : WorkflowPhase → Bool
  | .working | .finishing _ => true
  | .absent | .ended => false

/-- A `finalize` between its `CountRows` and its UPDATE. -/
structure FinalizeCall where
  totals : Totals
  outcome : Outcome
  activeOnly : Bool
deriving DecidableEq, Repr

/-- `unrecorded` says that the counts of the rows have changed since the job
last recorded them. The code has no such variable. -/
structure JobWorld where
  job : JobRow
  rows : List StoredRow := []
  main : WorkflowPhase := .absent
  retry : WorkflowPhase := .absent
  counted : List FinalizeCall := []
  unrecorded : Bool := false

def JobWorld.phase (s : JobWorld) : Party → WorkflowPhase
  | .main => s.main
  | .retry => s.retry

def JobWorld.enter (s : JobWorld) (party : Party) (phase : WorkflowPhase) : JobWorld :=
  match party with
  | .main => { s with main := phase }
  | .retry => { s with retry := phase }

inductive JobAction
  | startMain
  | startRetry
  | persist (party : Party) (outcome : PersistOutcomeInput)
  | finish (party : Party) (outcome : Outcome)
  | count (party : Party)
  | countRepair (execution : Option WorkflowExecutionStatus)
  | finalize (call : FinalizeCall)
  | endWorkflow (party : Party)
  | startFailed (message : String)
  | started
  | pause
  | resume
  | cancel
  | syncTotals (t : Totals)

def FinalizeCall.executes (call : FinalizeCall) (job : JobRow) : Prop :=
  call.activeOnly = false ∨ job.status.isActive = true

instance (call : FinalizeCall) (job : JobRow) : Decidable (call.executes job) := by
  unfold FinalizeCall.executes
  infer_instance

/-- `retry_target` lets a retry start only on a terminal job, and retries share
one workflow ID. A retry reaches `finishJob` without an error only. A start is
recorded failed only when the bridge refused the connection. -/
def JobWorld.step (s : JobWorld) : JobAction → Option JobWorld
  | .startMain => if s.main = .absent then some { s with main := .working } else none
  | .startRetry =>
      if s.retry.isRunning = false ∧ s.job.status.isTerminal = true then
        some { s with retry := .working }
      else none
  | .persist party outcome =>
      if s.phase party = .working then
        some
          { s with
            rows := persistOutcome s.rows outcome
            unrecorded := s.unrecorded ||
              decide (countRows (persistOutcome s.rows outcome) ≠ countRows s.rows) }
      else none
  | .finish party outcome =>
      if s.phase party = .working ∧ (party = .retry → outcome = {}) then
        some (s.enter party (.finishing outcome))
      else none
  | .count party =>
      match s.phase party with
      | .finishing outcome =>
          some { s with counted := ⟨countRows s.rows, outcome, false⟩ :: s.counted }
      | _ => none
  | .countRepair execution =>
      match repairFor execution with
      | some outcome => some { s with counted := ⟨countRows s.rows, outcome, true⟩ :: s.counted }
      | none => none
  | .finalize call =>
      if call ∈ s.counted then
        some
          { s with
            job := Lifecycle.finalize call.totals call.outcome call.activeOnly s.job
            unrecorded := if call.executes s.job then decide (call.totals ≠ countRows s.rows)
              else s.unrecorded }
      else none
  | .endWorkflow party =>
      if (s.phase party).isRunning = true then some (s.enter party .ended) else none
  | .startFailed message =>
      if s.main = .absent then
        some { s with job := Lifecycle.startFailed message s.job, main := .ended }
      else none
  | .started => some { s with job := recordStarted s.job }
  | .pause => some { s with job := recordPause s.job }
  | .resume => some { s with job := recordResume s.job }
  | .cancel =>
      some
        { s with
          job := recordCancel (countRows s.rows) s.job
          unrecorded := if s.job.status.isActive = true then false else s.unrecorded }
  | .syncTotals t => some { s with job := syncJobTotals t s.job }

def JobWorld.start (scheduled : Bool) : JobWorld := { job := insertedJob scheduled }

def JobWorld.Quiet (s : JobWorld) : Prop :=
  s.main.isRunning = false ∧ s.retry.isRunning = false

instance (s : JobWorld) : Decidable s.Quiet := by
  unfold JobWorld.Quiet
  infer_instance

/-- The outcome that `job` carries agrees with `rows`. Totals never written
read as zero. -/
structure OutcomeAgrees (job : JobRow) (rows : List StoredRow) : Prop where
  succeeded : job.status = .succeeded →
    rows ≠ [] ∧ (∀ row ∈ rows, row.status = .succeeded) ∧ job.lastError = none
  totals : job.totals.getD {} = countRows rows

/-- No outcome is lost: a `finalize` that is executed records counts that still
hold, and the workflow that leaves nothing running behind it leaves no counts
unrecorded, unless the job is still to be finalized by the reconciler. -/
def OutcomeRecorded (s : JobWorld) : JobAction → Prop
  | .finalize call => call.executes s.job → call.totals = countRows s.rows
  | .endWorkflow party =>
      (s.enter party .ended).Quiet → s.job.status.isTerminal = true → s.unrecorded = false
  | _ => True

instance (s : JobWorld) (action : JobAction) : Decidable (OutcomeRecorded s action) := by
  cases action <;> unfold OutcomeRecorded <;> infer_instance

theorem rowsWith_eq_zero {status : StepStatus} {rows : List StoredRow}
    (none : rowsWith status rows = 0) : ∀ row ∈ rows, row.status ≠ status := by
  intro row member same
  have absent := List.countP_eq_zero.mp none row member
  exact absent (decide_eq_true same)

theorem all_succeeded_iff (rows : List StoredRow) :
    (∀ row ∈ rows, row.status = .succeeded) ↔
      rowsWith .failed rows = 0 ∧ rowsWith .unresolved rows = 0 := by
  constructor
  · intro all
    constructor
    · apply List.countP_eq_zero.mpr
      intro row member
      rw [all row member]
      decide
    · apply List.countP_eq_zero.mpr
      intro row member
      rw [all row member]
      decide
  · rintro ⟨failed, unresolved⟩ row member
    cases status : row.status with
    | succeeded => rfl
    | failed => exact absurd status (rowsWith_eq_zero failed row member)
    | unresolved => exact absurd status (rowsWith_eq_zero unresolved row member)

private theorem OutcomeAgrees.of_countRows {job : JobRow} {rows others : List StoredRow}
    (agrees : OutcomeAgrees job rows) (same : countRows others = countRows rows) :
    OutcomeAgrees job others := by
  constructor
  · intro succeeded
    obtain ⟨nonempty, all, noError⟩ := agrees.succeeded succeeded
    obtain ⟨failed, unresolved⟩ := (all_succeeded_iff rows).mp all
    refine ⟨?_, ?_, noError⟩
    · intro empty
      have length : others.length = rows.length := congrArg Totals.total same
      rw [empty] at length
      exact nonempty (List.length_eq_zero_iff.mp length.symm)
    · exact (all_succeeded_iff others).mpr ⟨(congrArg Totals.failed same).trans failed,
        (congrArg Totals.unresolved same).trans unresolved⟩
  · rw [same]
    exact agrees.totals

theorem finalize_agrees {rows : List StoredRow} {o : Outcome} {activeOnly : Bool} {job : JobRow}
    (executed : activeOnly = false ∨ job.status.isActive = true) :
    OutcomeAgrees (finalize (countRows rows) o activeOnly job) rows := by
  constructor
  · intro succeeded
    have records := (finalize_succeeded_iff (countRows rows) o executed).mp succeeded
    refine ⟨?_, ?_, ?_⟩
    · intro empty
      exact records.total (congrArg List.length empty)
    · exact (all_succeeded_iff rows).mpr ⟨records.failed, records.unresolved⟩
    · unfold finalize
      rw [if_pos executed]
      exact records.noError
  · unfold finalize
    rw [if_pos executed]
    rfl

structure JobWorld.Sound (s : JobWorld) : Prop where
  recorded : s.unrecorded = false → s.job.status.isTerminal = true → OutcomeAgrees s.job s.rows
  quiet : s.Quiet → s.job.status.isTerminal = true → s.unrecorded = false
  untouched : s.job.status = .pending →
    s.job.totals = none ∧ (s.main = .absent → s.rows = [] ∧ s.unrecorded = false)
  retrying : s.retry.isRunning = true → s.job.status.isTerminal = true

theorem start_sound (scheduled : Bool) : (JobWorld.start scheduled).Sound := by
  have active : (insertedJob scheduled).status.isTerminal = false := by
    cases scheduled <;> rfl
  constructor
  · intro _recorded terminal
    change (insertedJob scheduled).status.isTerminal = true at terminal
    rw [active] at terminal
    cases terminal
  · intro _quiet _terminal
    rfl
  · intro _pending
    exact ⟨rfl, fun _ => ⟨rfl, rfl⟩⟩
  · intro impossible
    cases impossible

section Steps

variable {s next : JobWorld}

theorem JobWorld.Sound.of_active {job : JobRow} (sound : s.Sound)
    (before : s.job.status.isTerminal = false) (after : job.status.isTerminal = false)
    (pending : job.status = .pending → job = s.job) :
    ({ s with job := job } : JobWorld).Sound := by
  constructor
  · intro _recorded terminal
    rw [after] at terminal
    cases terminal
  · intro _quiet terminal
    rw [after] at terminal
    cases terminal
  · intro stays
    have same := pending stays
    subst same
    exact sound.untouched stays
  · intro running
    rw [sound.retrying running] at before
    cases before

theorem recordStarted_sound (sound : s.Sound) :
    ({ s with job := recordStarted s.job } : JobWorld).Sound := by
  by_cases pending : s.job.status = .pending
  · apply sound.of_active
    · rw [pending]
      rfl
    · unfold recordStarted
      rw [if_pos pending]
      rfl
    · unfold recordStarted
      rw [if_pos pending]
      intro impossible
      cases impossible
  · have same : recordStarted s.job = s.job := by
      unfold recordStarted
      rw [if_neg pending]
    rw [same]
    exact sound

theorem recordSignal_sound {newStatus : JobStatus} {allowed : List JobStatus}
    (active : ∀ status ∈ allowed, status.isTerminal = false)
    (stays : newStatus.isTerminal = false) (starts : newStatus ≠ .pending) (sound : s.Sound) :
    ({ s with job := recordSignal newStatus allowed s.job } : JobWorld).Sound := by
  unfold recordSignal
  split
  · rename_i member
    apply sound.of_active (active s.job.status member)
    · exact stays
    · intro pending
      exact absurd pending starts
  · exact sound

theorem syncJobTotals_sound (t : Totals) (sound : s.Sound) :
    ({ s with job := syncJobTotals t s.job } : JobWorld).Sound := by
  unfold syncJobTotals
  split
  · rename_i running
    apply sound.of_active
    · rw [running]
      rfl
    · change s.job.status.isTerminal = false
      rw [running]
      rfl
    · intro pending
      change s.job.status = .pending at pending
      rw [running] at pending
      cases pending
  · exact sound

theorem startFailed_sound (message : String) (sound : s.Sound) (absent : s.main = .absent) :
    ({ s with job := startFailed message s.job, main := .ended } : JobWorld).Sound := by
  unfold startFailed
  split
  · rename_i pending
    obtain ⟨noTotals, untouched⟩ := sound.untouched pending
    obtain ⟨noRows, recorded⟩ := untouched absent
    constructor
    · intro _recorded _terminal
      constructor
      · intro impossible
        cases impossible
      · change s.job.totals.getD {} = countRows s.rows
        rw [noTotals, noRows]
        rfl
    · intro _quiet _terminal
      exact recorded
    · intro impossible
      cases impossible
    · intro _running
      rfl
  · constructor
    · exact sound.recorded
    · intro quiet
      apply sound.quiet
      constructor
      · rw [absent]
        rfl
      · exact quiet.2
    · intro pending
      refine ⟨(sound.untouched pending).1, ?_⟩
      intro impossible
      cases impossible
    · exact sound.retrying

theorem recordCancel_sound (sound : s.Sound) :
    ({ s with
       job := recordCancel (countRows s.rows) s.job
       unrecorded := if s.job.status.isActive = true then false else s.unrecorded } :
      JobWorld).Sound := by
  unfold recordCancel
  split
  · constructor
    · intro _recorded _terminal
      constructor
      · intro impossible
        cases impossible
      · rfl
    · intro _quiet _terminal
      rfl
    · intro impossible
      cases impossible
    · intro _running
      rfl
  · exact sound

theorem finalize_sound {call : FinalizeCall} (sound : s.Sound)
    (current : call.executes s.job → call.totals = countRows s.rows) :
    ({ s with
       job := finalize call.totals call.outcome call.activeOnly s.job
       unrecorded := if call.executes s.job then decide (call.totals ≠ countRows s.rows)
         else s.unrecorded } : JobWorld).Sound := by
  by_cases executed : call.executes s.job
  · have same := current executed
    have terminal := finalize_status_isTerminal call.totals call.outcome call.activeOnly s.job
      executed
    have recorded : (if call.executes s.job then decide (call.totals ≠ countRows s.rows)
        else s.unrecorded) = false := by
      rw [if_pos executed, same]
      exact decide_eq_false (fun different => different rfl)
    rw [recorded]
    constructor
    · intro _recorded _terminal
      change OutcomeAgrees (finalize call.totals call.outcome call.activeOnly s.job) s.rows
      rw [same]
      exact finalize_agrees executed
    · intro _quiet _terminal
      rfl
    · intro pending
      change (finalize call.totals call.outcome call.activeOnly s.job).status = .pending at pending
      rw [pending] at terminal
      cases terminal
    · intro _running
      exact terminal
  · have same : finalize call.totals call.outcome call.activeOnly s.job = s.job := by
      unfold finalize
      exact if_neg executed
    rw [same, if_neg executed]
    exact sound

theorem not_quiet_of_running (party : Party) (running : (s.phase party).isRunning = true) :
    ¬s.Quiet := by
  intro quiet
  cases party with
  | main =>
      have idle := quiet.1
      change s.main.isRunning = true at running
      rw [running] at idle
      cases idle
  | retry =>
      have idle := quiet.2
      change s.retry.isRunning = true at running
      rw [running] at idle
      cases idle

theorem persist_sound {party : Party} {outcome : PersistOutcomeInput} (sound : s.Sound)
    (working : s.phase party = .working) :
    ({ s with
       rows := persistOutcome s.rows outcome
       unrecorded := s.unrecorded ||
         decide (countRows (persistOutcome s.rows outcome) ≠ countRows s.rows) } :
      JobWorld).Sound := by
  have busy : ¬s.Quiet := not_quiet_of_running party (by rw [working]; rfl)
  constructor
  · intro recorded terminal
    obtain ⟨before, unchanged⟩ := Bool.or_eq_false_iff.mp recorded
    have same : countRows (persistOutcome s.rows outcome) = countRows s.rows :=
      Decidable.not_not.mp (of_decide_eq_false unchanged)
    exact (sound.recorded before terminal).of_countRows same
  · intro quiet
    exact absurd quiet busy
  · intro pending
    refine ⟨(sound.untouched pending).1, ?_⟩
    intro absent
    change s.main = .absent at absent
    cases party with
    | main =>
        change s.main = .working at working
        rw [working] at absent
        cases absent
    | retry =>
        change s.retry = .working at working
        have terminal := sound.retrying (by rw [working]; rfl)
        change s.job.status = .pending at pending
        rw [pending] at terminal
        cases terminal
  · exact sound.retrying

theorem enter_sound {party : Party} {phase : WorkflowPhase} (sound : s.Sound)
    (started : phase ≠ .absent)
    (quiet : (s.enter party phase).Quiet → s.job.status.isTerminal = true → s.unrecorded = false)
    (retrying : party = .retry → phase.isRunning = true → s.job.status.isTerminal = true) :
    (s.enter party phase).Sound := by
  cases party with
  | main =>
      constructor
      · exact sound.recorded
      · exact quiet
      · intro pending
        refine ⟨(sound.untouched pending).1, ?_⟩
        intro absent
        exact absurd absent started
      · exact sound.retrying
  | retry =>
      constructor
      · exact sound.recorded
      · exact quiet
      · exact sound.untouched
      · intro running
        exact retrying rfl running

theorem enter_busy {party : Party} {phase : WorkflowPhase} (running : phase.isRunning = true) :
    ¬(s.enter party phase).Quiet := by
  apply not_quiet_of_running party
  cases party with
  | main => exact running
  | retry => exact running

theorem step_sound {action : JobAction} (allowed : OutcomeRecorded s action) (sound : s.Sound)
    (taken : s.step action = some next) : next.Sound := by
  cases action with
  | startMain =>
      simp only [JobWorld.step] at taken
      split at taken
      · cases taken
        apply @enter_sound s .main .working sound
        · decide
        · intro quiet
          exact absurd quiet (enter_busy rfl)
        · intro impossible
          cases impossible
      · cases taken
  | startRetry =>
      simp only [JobWorld.step] at taken
      split at taken
      · rename_i free
        cases taken
        apply @enter_sound s .retry .working sound
        · decide
        · intro quiet
          exact absurd quiet (enter_busy rfl)
        · intro _retry _running
          exact free.2
      · cases taken
  | persist party outcome =>
      simp only [JobWorld.step] at taken
      split at taken
      · rename_i working
        cases taken
        exact persist_sound sound working
      · cases taken
  | finish party outcome =>
      simp only [JobWorld.step] at taken
      split at taken
      · rename_i working
        cases taken
        apply enter_sound sound
        · intro impossible
          cases impossible
        · intro quiet
          exact absurd quiet (enter_busy rfl)
        · intro isRetry _running
          subst isRetry
          apply sound.retrying
          have phase := working.1
          change s.retry = .working at phase
          rw [phase]
          rfl
      · cases taken
  | count party =>
      simp only [JobWorld.step] at taken
      split at taken
      · cases taken
        exact ⟨sound.recorded, sound.quiet, sound.untouched, sound.retrying⟩
      · cases taken
  | countRepair execution =>
      simp only [JobWorld.step] at taken
      split at taken
      · cases taken
        exact ⟨sound.recorded, sound.quiet, sound.untouched, sound.retrying⟩
      · cases taken
  | finalize call =>
      simp only [JobWorld.step] at taken
      split at taken
      · cases taken
        exact finalize_sound sound allowed
      · cases taken
  | endWorkflow party =>
      simp only [JobWorld.step] at taken
      split at taken
      · cases taken
        apply enter_sound sound
        · intro impossible
          cases impossible
        · exact allowed
        · intro _retry impossible
          cases impossible
      · cases taken
  | startFailed message =>
      simp only [JobWorld.step] at taken
      split at taken
      · rename_i absent
        cases taken
        exact startFailed_sound message sound absent
      · cases taken
  | started =>
      cases taken
      exact recordStarted_sound sound
  | pause =>
      cases taken
      exact recordSignal_sound (by decide) rfl (by decide) sound
  | resume =>
      cases taken
      exact recordSignal_sound (by decide) rfl (by decide) sound
  | cancel =>
      cases taken
      exact recordCancel_sound sound
  | syncTotals t =>
      cases taken
      exact syncJobTotals_sound t sound

end Steps

def oneRowJob : List JobAction :=
  [.startMain, .started, .persist .main { rowIndex := 0, status := .succeeded },
    .finish .main {}, .count .main,
    .finalize { totals := { processed := 1, total := 1 }, outcome := {}, activeOnly := false },
    .endWorkflow .main]

end MigrationPlatform.Lifecycle
