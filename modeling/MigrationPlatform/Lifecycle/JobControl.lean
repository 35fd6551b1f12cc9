/-
Concurrent pause and resume requests on one running job.

`signal_and_record` checks the status, signals the workflow and then updates
the status where it still allows the request. The three are separate steps of
a request; any number of requests run their steps in any order, and the other
writers of the job run between them. The workflow receives the signals in the
order in which they are sent.
-/

import MigrationPlatform.Foundation.GuardedRuns
import MigrationPlatform.Lifecycle.JobStatus

namespace MigrationPlatform.Lifecycle

open GuardedRuns

inductive ControlKind
  | pause
  | resume
deriving DecidableEq, Repr

def ControlKind.allowed : ControlKind → List JobStatus
  | .pause => pausable
  | .resume => resumable

def ControlKind.newStatus : ControlKind → JobStatus
  | .pause => .paused
  | .resume => .running

def ControlKind.record (kind : ControlKind) : JobRow → JobRow :=
  recordSignal kind.newStatus kind.allowed

inductive RequestStage
  | arrived
  | checked
  | signalled
  | returned
deriving DecidableEq, Repr

/-- How `signal_workflow` ends: the signal is sent and the call returns, the
call fails with nothing sent, or the signal is sent and the call still fails. -/
inductive SignalAnswer
  | accepted
  | refused
  | lost
deriving DecidableEq, Repr

def SignalAnswer.sent : SignalAnswer → Bool
  | .accepted | .lost => true
  | .refused => false

/-- `received` is what the workflow has received, oldest first. -/
structure ControlState where
  job : JobRow
  stages : List RequestStage
  received : List ControlKind := []

inductive ControlAction
  | check (request : Nat)
  | signal (request : Nat) (answer : SignalAnswer)
  | update (request : Nat)
  | other (statement : JobWrite)

def JobWrite.isControl : JobWrite → Bool
  | .pause | .resume => true
  | _ => false

def ControlState.enter (s : ControlState) (request : Nat) (stage : RequestStage) : ControlState :=
  { s with stages := s.stages.set request stage }

/-- `kinds` says what each request asks for. A step that is not the next one of
its request is refused. -/
def ControlState.step (kinds : List ControlKind) (s : ControlState) :
    ControlAction → Option ControlState
  | .check request =>
      match kinds[request]?, s.stages[request]? with
      | some kind, some .arrived =>
          some (s.enter request (if s.job.status ∈ kind.allowed then .checked else .returned))
      | _, _ => none
  | .signal request answer =>
      match kinds[request]?, s.stages[request]? with
      | some kind, some .checked =>
          some
            { s.enter request (if answer = .accepted then .signalled else .returned) with
              received := if answer.sent = true then s.received ++ [kind] else s.received }
      | _, _ => none
  | .update request =>
      match kinds[request]?, s.stages[request]? with
      | some kind, some .signalled =>
          some { s.enter request .returned with job := kind.record s.job }
      | _, _ => none
  | .other statement =>
      if statement.isControl = true then none
      else some { s with job := s.job.write statement }

def ControlState.start (kinds : List ControlKind) (job : JobRow) : ControlState :=
  { job := job, stages := kinds.map (fun _ => .arrived) }

/-! ### What a schedule says -/

def sentSignals (kinds : List ControlKind) : List ControlAction → List ControlKind
  | [] => []
  | .signal request answer :: rest =>
      (if answer.sent = true then kinds[request]?.toList else []) ++ sentSignals kinds rest
  | _ :: rest => sentSignals kinds rest

def executedUpdates (kinds : List ControlKind) : List ControlAction → List ControlKind
  | [] => []
  | .update request :: rest => kinds[request]?.toList ++ executedUpdates kinds rest
  | _ :: rest => executedUpdates kinds rest

/-- The last signal sent and the last update executed both come from a pause
request, or neither does. -/
def LastStepsAgree (kinds : List ControlKind) (schedule : List ControlAction) : Prop :=
  (executedUpdates kinds schedule).getLast? = some .pause ↔
    (sentSignals kinds schedule).getLast? = some .pause

instance (kinds : List ControlKind) (schedule : List ControlAction) :
    Decidable (LastStepsAgree kinds schedule) := by
  unfold LastStepsAgree
  infer_instance

section Steps

variable {kinds : List ControlKind} {s next : ControlState}

theorem step_check {request : Nat} (taken : s.step kinds (.check request) = some next) :
    next.job = s.job ∧ next.received = s.received := by
  simp only [ControlState.step] at taken
  split at taken
  · cases taken
    exact ⟨rfl, rfl⟩
  · cases taken

theorem step_signal {request : Nat} {answer : SignalAnswer}
    (taken : s.step kinds (.signal request answer) = some next) :
    next.job = s.job ∧ next.received =
      s.received ++ (if answer.sent = true then kinds[request]?.toList else []) := by
  simp only [ControlState.step] at taken
  split at taken
  · rename_i kind found _stage
    cases taken
    constructor
    · rfl
    · rw [found]
      cases answer.sent with
      | false => exact (List.append_nil s.received).symm
      | true => rfl
  · cases taken

theorem step_update {request : Nat} (taken : s.step kinds (.update request) = some next) :
    ∃ kind, kinds[request]? = some kind ∧ next.job = kind.record s.job ∧
      next.received = s.received := by
  simp only [ControlState.step] at taken
  split at taken
  · rename_i kind found _stage
    cases taken
    exact ⟨kind, found, rfl, rfl⟩
  · cases taken

theorem step_other {statement : JobWrite} (taken : s.step kinds (.other statement) = some next) :
    statement.isControl = false ∧ next.job = s.job.write statement ∧
      next.received = s.received := by
  simp only [ControlState.step] at taken
  split at taken
  · cases taken
  · rename_i other
    cases taken
    exact ⟨eq_false_of_ne_true other, rfl, rfl⟩

end Steps

def JobRow.Controllable (job : JobRow) : Prop :=
  job.status = .running ∨ job.status = .paused

private theorem ControlKind.record_status (kind : ControlKind) (job : JobRow)
    (controllable : job.Controllable) : (kind.record job).status = kind.newStatus := by
  unfold ControlKind.record recordSignal
  cases kind with
  | pause =>
      rcases controllable with running | paused
      · rw [running]
        rfl
      · rw [paused]
        exact paused
  | resume =>
      rcases controllable with running | paused
      · rw [running]
        exact running
      · rw [paused]
        rfl

theorem finalize_status_of_active {t : Totals} {o : Outcome} {activeOnly : Bool} {job : JobRow}
    (active : (finalize t o activeOnly job).status.isTerminal = false) :
    finalize t o activeOnly job = job := by
  by_cases executed : activeOnly = false ∨ job.status.isActive = true
  · rw [finalize_status_isTerminal t o activeOnly job executed] at active
    cases active
  · unfold finalize
    rw [if_neg executed]

theorem recordStarted_of_controllable {job : JobRow} (controllable : job.Controllable) :
    recordStarted job = job := by
  unfold recordStarted
  rcases controllable with running | paused
  · rw [running, if_neg (by decide), ← running]
  · rw [paused, if_neg (by decide), ← paused]

theorem write_status_of_controllable {job : JobRow} {statement : JobWrite}
    (controllable : job.Controllable) (other : statement.isControl = false)
    (active : (job.write statement).status.isTerminal = false) :
    (job.write statement).status = job.status := by
  cases statement with
  | startFailed message =>
      change (startFailed message job).status = job.status
      unfold startFailed
      rcases controllable with running | paused
      · rw [running, if_neg (by decide), running]
      · rw [paused, if_neg (by decide), paused]
  | startRecorded =>
      change (recordStarted job).status = job.status
      rw [recordStarted_of_controllable controllable]
  | markJobRunning =>
      change (recordStarted job).status = job.status
      rw [recordStarted_of_controllable controllable]
  | pause => cases other
  | resume => cases other
  | cancel counts =>
      change (recordCancel counts job).status = job.status
      change (recordCancel counts job).status.isTerminal = false at active
      unfold recordCancel at active ⊢
      split
      · rename_i executed
        rw [if_pos executed] at active
        cases active
      · rfl
  | finalize t o =>
      change (finalize t o false job).status = job.status
      rw [finalize_status_of_active active]
  | reconcile seen execution t =>
      change (reconcile seen execution t job).status = job.status
      change (reconcile seen execution t job).status.isTerminal = false at active
      unfold reconcile at active ⊢
      split
      · rename_i outcome repair
        rw [repair] at active
        rw [finalize_status_of_active active]
      · split
        · rfl
        · rw [recordStarted_of_controllable controllable]
  | syncTotals t =>
      change (syncJobTotals t job).status = job.status
      unfold syncJobTotals
      split
      · rfl
      · rfl

variable {kinds : List ControlKind}

/-- A step that leaves the job non-terminal writes the status its update asks
for, and no other step changes it. -/
theorem step_status {s next : ControlState} {action : ControlAction}
    (taken : s.step kinds action = some next) (controllable : s.job.Controllable)
    (active : next.job.status.isTerminal = false) :
    next.job.status = ((executedUpdates kinds [action]).getLast?.map ControlKind.newStatus).getD
      s.job.status := by
  cases action with
  | check request =>
      rw [(step_check taken).1]
      rfl
  | signal request answer =>
      rw [(step_signal taken).1]
      rfl
  | update request =>
      obtain ⟨kind, found, recorded, _same⟩ := step_update taken
      rw [recorded, kind.record_status s.job controllable]
      unfold executedUpdates
      rw [found]
      rfl
  | other statement =>
      obtain ⟨other, written, _same⟩ := step_other taken
      rw [written] at active ⊢
      exact write_status_of_controllable controllable other active

private theorem step_received {s next : ControlState} {action : ControlAction}
    (taken : s.step kinds action = some next) :
    next.received = s.received ++ sentSignals kinds [action] := by
  cases action with
  | check request =>
      rw [(step_check taken).2]
      exact (List.append_nil s.received).symm
  | signal request answer =>
      rw [(step_signal taken).2]
      unfold sentSignals
      rw [sentSignals, List.append_nil]
  | update request =>
      obtain ⟨_kind, _found, _recorded, same⟩ := step_update taken
      rw [same]
      exact (List.append_nil s.received).symm
  | other statement =>
      rw [(step_other taken).2.2]
      exact (List.append_nil s.received).symm

private theorem step_precedes {s next : ControlState} {action : ControlAction}
    (taken : s.step kinds action = some next) : s.job.Precedes next.job := by
  cases action with
  | check request =>
      rw [(step_check taken).1]
      exact JobRow.Precedes.refl s.job
  | signal request answer =>
      rw [(step_signal taken).1]
      exact JobRow.Precedes.refl s.job
  | update request =>
      obtain ⟨kind, _found, recorded, _same⟩ := step_update taken
      rw [recorded]
      refine (recordSignal_advances kind.newStatus kind.allowed ?_ s.job).precedes
      cases kind with
      | pause => decide
      | resume => decide
  | other statement =>
      rw [(step_other taken).2.1]
      exact (s.job.write_advances statement).precedes

private theorem executedUpdates_cons (kinds : List ControlKind) (action : ControlAction)
    (rest : List ControlAction) :
    executedUpdates kinds (action :: rest) =
      executedUpdates kinds [action] ++ executedUpdates kinds rest := by
  cases action with
  | update request =>
      simp only [executedUpdates, List.append_nil]
  | _ => rfl

private theorem sentSignals_cons (kinds : List ControlKind) (action : ControlAction)
    (rest : List ControlAction) :
    sentSignals kinds (action :: rest) = sentSignals kinds [action] ++ sentSignals kinds rest := by
  cases action with
  | signal request answer =>
      simp only [sentSignals, List.append_nil]
  | _ => rfl

private theorem run_received (schedule : List ControlAction)
    {s final : ControlState} (ran : run (ControlState.step kinds) s schedule = some final) :
    final.received = s.received ++ sentSignals kinds schedule := by
  induction schedule generalizing s with
  | nil =>
      cases ran
      exact (List.append_nil final.received).symm
  | cons action rest ih =>
      obtain ⟨next, taken, ranRest⟩ := run_cons_eq_some ran
      rw [ih ranRest, step_received taken, sentSignals_cons kinds action rest, List.append_assoc]

private theorem run_precedes (schedule : List ControlAction)
    {s final : ControlState} (ran : run (ControlState.step kinds) s schedule = some final) :
    s.job.Precedes final.job := by
  have preserved : ∀ (before : ControlState) (action : ControlAction) (next : ControlState),
      s.job.Precedes before.job → before.step kinds action = some next →
      s.job.Precedes next.job := by
    intro before action next early taken
    exact early.trans (step_precedes taken)
  exact invariant_of_run preserved schedule s final (JobRow.Precedes.refl s.job) ran

theorem run_status (schedule : List ControlAction)
    {s final : ControlState} (ran : run (ControlState.step kinds) s schedule = some final)
    (controllable : s.job.Controllable) (active : final.job.status.isTerminal = false) :
    final.job.status = ((executedUpdates kinds schedule).getLast?.map ControlKind.newStatus).getD
      s.job.status := by
  induction schedule generalizing s with
  | nil =>
      cases ran
      rfl
  | cons action rest ih =>
      obtain ⟨next, taken, ranRest⟩ := run_cons_eq_some ran
      have nextActive : next.job.status.isTerminal = false := by
        cases terminal : next.job.status.isTerminal with
        | false => rfl
        | true =>
            rw [(run_precedes rest ranRest).terminal terminal] at active
            exact active
      have status := step_status taken controllable nextActive
      have nextControllable : next.job.Controllable := by
        unfold JobRow.Controllable
        rw [status]
        cases (executedUpdates kinds [action]).getLast? with
        | none => exact controllable
        | some kind =>
            cases kind with
            | pause => exact Or.inr rfl
            | resume => exact Or.inl rfl
      rw [ih ranRest nextControllable, status, executedUpdates_cons kinds action rest,
        List.getLast?_append]
      cases (executedUpdates kinds rest).getLast? with
      | none => rfl
      | some kind => rfl

/-- For every set of requests, every schedule of their steps among those of the
other writers and every state it leads to: while the job is not terminal, its
status says paused exactly when the last signal received is a pause if and
only if the last signal sent and the last update executed agree. -/
theorem status_agrees_with_signals_iff (kinds : List ControlKind) (schedule : List ControlAction)
    (job : JobRow) (final : ControlState) (running : job.status = .running)
    (ran : run (ControlState.step kinds) (ControlState.start kinds job) schedule = some final)
    (active : final.job.status.isTerminal = false) :
    (final.job.status = .paused ↔ final.received.getLast? = some .pause) ↔
      LastStepsAgree kinds schedule := by
  have status := run_status schedule ran (Or.inl running) active
  have paused : final.job.status = .paused ↔
      (executedUpdates kinds schedule).getLast? = some .pause := by
    rw [status]
    cases (executedUpdates kinds schedule).getLast? with
    | none =>
        change job.status = .paused ↔ none = some ControlKind.pause
        rw [running]
        decide
    | some kind =>
        cases kind with
        | pause =>
            change JobStatus.paused = .paused ↔ some ControlKind.pause = some .pause
            decide
        | resume =>
            change JobStatus.running = .paused ↔ some ControlKind.resume = some .pause
            decide
  have received : final.received = sentSignals kinds schedule := run_received schedule ran
  rw [paused, received]
  exact Iff.rfl

def runningJob : JobRow := { status := .running }

/-- One pause request from its check to its update. -/
theorem status_agrees_with_signals_iff_one_pause :
    (JobStatus.paused = .paused ↔ [ControlKind.pause].getLast? = some .pause) ↔
      LastStepsAgree [.pause] [.check 0, .signal 0 .accepted, .update 0] :=
  status_agrees_with_signals_iff [.pause] [.check 0, .signal 0 .accepted, .update 0] runningJob
    { job := { status := .paused }, stages := [.returned], received := [.pause] }
    rfl rfl rfl

/-- Two pauses and a resume. The second pause is checked while the job runs,
the first one completes, the resume is checked and signalled; then the second
pause signals, its update finds the job paused already, and the resume sets it
running. All have returned, the workflow was told to pause last. -/
theorem status_disagrees_with_signals :
    ∃ final, run (ControlState.step [.pause, .pause, .resume])
        (ControlState.start [.pause, .pause, .resume] runningJob)
        [.check 1, .check 0, .signal 0 .accepted, .update 0, .check 2, .signal 2 .accepted,
          .signal 1 .accepted, .update 1, .update 2] = some final ∧
      (∀ stage ∈ final.stages, stage = .returned) ∧ final.job.status.isTerminal = false ∧
      ¬ (final.job.status = .paused ↔ final.received.getLast? = some .pause) := by
  refine ⟨{ job := runningJob, stages := [.returned, .returned, .returned],
            received := [.pause, .resume, .pause] }, rfl, ?_, rfl, ?_⟩
  · decide
  · decide

end MigrationPlatform.Lifecycle
