/-
The `operations` and `operation_attempts` tables and their two transactions,
`begin` and `finish`.

Each transaction locks one `operations` row, so it is a function of that row.
`beginRow` and `finishRow` are that function; `Ledger.begin` and
`Ledger.finish` apply it to the whole tables. The value of `now()` is an
argument: in Postgres it is the start of the transaction, which a wait for the
row lock may leave behind the clock.

The columns `created_at` and `updated_at` are never read back and are left out.
-/

import MigrationPlatform.Delivery.Operation
import Mathlib.Logic.Function.Basic

namespace MigrationPlatform.Delivery

structure OperationKey where
  jobID : Int
  rowIndex : Int
  stepIndex : Int
deriving DecidableEq, Repr

structure OperationRef where
  jobID : Int
  rowIndex : Int
  stepIndex : Int
  stepName : String
deriving DecidableEq, Repr

/-- The primary key of `operations`; the step name is not part of it. -/
def OperationRef.key (op : OperationRef) : OperationKey :=
  { jobID := op.jobID, rowIndex := op.rowIndex, stepIndex := op.stepIndex }

structure OperationRow where
  stepName : String
  operationKey : String
  payloadSHA256 : String
  state : OpState
  attempts : Nat := 0
  leaseAttempt : Option AttemptId := none
  leaseUntil : Option Time := none
  firstSentAt : Option Time := none
  receiptStatus : Option Nat := none
  receiptJson : Option String := none
  lastError : Option String := none
deriving DecidableEq, Repr

inductive AttemptOutcome
  | responded
  | notSent
  | unknown
  | replayed
  | foundByLookup
  | refused
deriving DecidableEq, Repr

structure OperationAttempt where
  jobID : Int
  attemptID : AttemptId
  rowIndex : Int
  stepIndex : Int
  attemptNo : Nat
  finishedAt : Option Time := none
  outcome : Option AttemptOutcome := none
  httpStatus : Option Nat := none
  error : Option String := none
deriving DecidableEq, Repr

structure BeginInput where
  op : OperationRef
  attemptID : AttemptId
  operationKey : String
  intent : AttemptIntent
deriving DecidableEq, Repr

structure BeginResult where
  decision : AttemptDecision
  snapshot : OpSnapshot
deriving DecidableEq, Repr

/-- The part of `finishInput` that the closing branch of `CallEndpoint` fills;
operation and attempt are added by its `finish` closure. -/
structure FinishInput where
  outcome : AttemptOutcome
  state : OpState
  httpStatus : Nat := 0
  receipt : String := ""
  error : String := ""
deriving DecidableEq, Repr

def zeroToNil (n : Nat) : Option Nat := if n = 0 then none else some n

def nullIf (s : String) : Option String := if s = "" then none else some s

def nullIfJSON (b : String) : Option String :=
  if b = "" ∨ b = "null" ∨ b = "\x7b\x7d" then none else some b

def insertPending (input : BeginInput) : OperationRow :=
  { stepName := input.op.stepName
    operationKey := input.operationKey
    payloadSHA256 := input.intent.payloadSHA256
    state := .pending }

def OperationRow.snapshot (row : OperationRow) (now : Time) : OpSnapshot :=
  { rowExists := decide (row.attempts > 0 ∨ row.state ≠ .pending)
    state := row.state
    payloadSHA256 := row.payloadSHA256
    attempts := row.attempts
    leaseAttempt := row.leaseAttempt
    leaseUntil := row.leaseUntil
    firstSentAt := row.firstSentAt
    receiptStatus := row.receiptStatus.getD 0
    receipt := row.receiptJson
    now := now }

def OperationRow.refuse (row : OperationRow) (reason : String) : OperationRow :=
  { row with
    state := .unresolved
    leaseAttempt := none
    leaseUntil := none
    lastError := some reason }

def OperationRow.grant (row : OperationRow) (input : BeginInput) (now : Time) : OperationRow :=
  { row with
    state := .sending
    attempts := row.attempts + 1
    operationKey := input.operationKey
    payloadSHA256 := input.intent.payloadSHA256
    leaseAttempt := some input.attemptID
    leaseUntil := some (now + operationLease)
    firstSentAt := row.firstSentAt.or (some now) }

def OperationRow.afterBegin (row : OperationRow) (input : BeginInput) (now : Time)
    (decision : AttemptDecision) : OperationRow :=
  match decision.kind with
  | .busy => row
  | .replay => row
  | .unresolved => row.refuse decision.reason
  | .send => row.grant input now
  | .lookupThenSend => row.grant input now

def lockedRow (stored : Option OperationRow) (input : BeginInput) : OperationRow :=
  stored.getD (insertPending input)

def beginRow (stored : Option OperationRow) (input : BeginInput) (now : Time) :
    BeginResult × OperationRow :=
  let row := lockedRow stored input
  let snapshot := row.snapshot now
  let decision := decideAttempt snapshot input.intent
  ({ decision := decision, snapshot := snapshot }, row.afterBegin input now decision)

/-- The decision of `begin`, which alone says whether the attempt may send. -/
def beginKind (stored : Option OperationRow) (input : BeginInput) (now : Time) : DecisionKind :=
  (beginRow stored input now).1.decision.kind

def beginAttempt (input : BeginInput) (now : Time) (result : BeginResult) :
    Option OperationAttempt :=
  let opened : OperationAttempt :=
    { jobID := input.op.jobID
      attemptID := input.attemptID
      rowIndex := input.op.rowIndex
      stepIndex := input.op.stepIndex
      attemptNo := result.snapshot.attempts }
  match result.decision.kind with
  | .busy => none
  | .replay => some
      { opened with
        finishedAt := some now
        outcome := some .replayed
        httpStatus := zeroToNil result.snapshot.receiptStatus }
  | .unresolved => some
      { opened with
        finishedAt := some now
        outcome := some .refused
        error := some result.decision.reason }
  | .send => some { opened with attemptNo := result.snapshot.attempts + 1 }
  | .lookupThenSend => some { opened with attemptNo := result.snapshot.attempts + 1 }

def OperationRow.finished (row : OperationRow) (f : FinishInput) : OperationRow :=
  { row with
    state := f.state
    leaseAttempt := none
    leaseUntil := none
    receiptStatus := (zeroToNil f.httpStatus).or row.receiptStatus
    receiptJson := if f.state = .succeeded then nullIfJSON f.receipt else row.receiptJson
    lastError := nullIf f.error }

/-- `none` is `RowsAffected() == 0`, reported as `errLeaseLost`. -/
def finishRow (stored : Option OperationRow) (attempt : AttemptId) (f : FinishInput) :
    Option OperationRow :=
  match stored with
  | none => none
  | some row => if row.leaseAttempt = some attempt then some (row.finished f) else none

@[simp] theorem snapshot_state (row : OperationRow) (now : Time) :
    (row.snapshot now).state = row.state := rfl

@[simp] theorem snapshot_payloadSHA256 (row : OperationRow) (now : Time) :
    (row.snapshot now).payloadSHA256 = row.payloadSHA256 := rfl

@[simp] theorem snapshot_now (row : OperationRow) (now : Time) :
    (row.snapshot now).now = now := rfl

@[simp] theorem snapshot_leaseUntil (row : OperationRow) (now : Time) :
    (row.snapshot now).leaseUntil = row.leaseUntil := rfl

@[simp] theorem snapshot_firstSentAt (row : OperationRow) (now : Time) :
    (row.snapshot now).firstSentAt = row.firstSentAt := rfl

variable {row : OperationRow}

theorem snapshot_rowExists_of_ne_pending (now : Time)
    (used : row.state ≠ .pending) : (row.snapshot now).rowExists = true := by
  simp [OperationRow.snapshot, used]

variable {now : Time}

private theorem snapshot_absent (absent : (row.snapshot now).rowExists = false) :
    row.attempts = 0 ∧ row.state = .pending := by
  simpa [OperationRow.snapshot] using absent

private theorem beginKind_eq (stored : Option OperationRow) (input : BeginInput) (now : Time) :
    beginKind stored input now =
      (decideAttempt ((lockedRow stored input).snapshot now) input.intent).kind := rfl

variable {input : BeginInput} {stored : Option OperationRow}

/-- A begin that does not grant keeps the row or stops it; it never touches the
payload, the receipt, the attempt counter or the date of the first send. -/
theorem beginRow_not_granted (refused : (beginKind stored input now).grants = false) :
    (beginRow stored input now).2 = lockedRow stored input ∨
      beginKind stored input now = .unresolved ∧
        (beginRow stored input now).2 =
          (lockedRow stored input).refuse (beginRow stored input now).1.decision.reason := by
  unfold beginKind at refused ⊢
  simp only [beginRow, OperationRow.afterBegin] at refused ⊢
  cases decided : (decideAttempt ((lockedRow stored input).snapshot now) input.intent).kind with
  | send => rw [decided] at refused; cases refused
  | lookupThenSend => rw [decided] at refused; cases refused
  | replay => exact Or.inl rfl
  | busy => exact Or.inl rfl
  | unresolved => exact Or.inr ⟨rfl, rfl⟩

theorem beginRow_granted (granted : (beginKind stored input now).grants = true) :
    (beginRow stored input now).2 = (lockedRow stored input).grant input now := by
  unfold beginKind at granted
  simp only [beginRow, OperationRow.afterBegin] at granted ⊢
  cases decided : (decideAttempt ((lockedRow stored input).snapshot now) input.intent).kind with
  | send => rfl
  | lookupThenSend => rfl
  | replay => rw [decided] at granted; cases granted
  | busy => rw [decided] at granted; cases granted
  | unresolved => rw [decided] at granted; cases granted

theorem beginRow_unresolved (stops : beginKind (some row) input now = .unresolved) :
    ∃ reason, (beginRow (some row) input now).2 = row.refuse reason := by
  unfold beginKind at stops
  simp only [beginRow, OperationRow.afterBegin] at stops ⊢
  rw [stops]
  exact ⟨_, rfl⟩

theorem beginRow_replay (replays : beginKind (some row) input now = .replay) :
    (beginRow (some row) input now).2 = row := by
  unfold beginKind at replays
  simp only [beginRow, OperationRow.afterBegin] at replays ⊢
  rw [replays]
  rfl

def Idle (stored : Option OperationRow) : Prop :=
  ∀ row, stored = some row → row.state.definite = true

inductive RowGrant (stored : Option OperationRow) (input : BeginInput) (now : Time) : Prop
  | idle (idle : Idle stored) (kind : beginKind stored input now = .send)
  | dedup (row : OperationRow) (found : stored = some row)
      (unknown : (row.snapshot now).effectiveState = .unknown)
      (same : row.payloadSHA256 = input.intent.payloadSHA256)
      (mode : input.intent.mode = .idempotent)
      (inTime : (row.snapshot now).retentionOver input.intent.retentionHours = false)
      (kind : beginKind stored input now = .send)
  | lookup (row : OperationRow) (found : stored = some row)
      (unknown : (row.snapshot now).effectiveState = .unknown)
      (same : row.payloadSHA256 = input.intent.payloadSHA256)
      (mode : input.intent.mode = .lookup)
      (kind : beginKind stored input now = .lookupThenSend)

private theorem effectiveState_definite
    (settled : (row.snapshot now).effectiveState.definite = true) : row.state.definite = true := by
  unfold OpSnapshot.effectiveState at settled
  split at settled
  · cases settled
  · exact settled

private theorem stored_of_unknown
    (unknown : ((lockedRow stored input).snapshot now).effectiveState = .unknown) :
    ∃ row, stored = some row ∧ lockedRow stored input = row := by
  cases stored with
  | some row => exact ⟨row, rfl, rfl⟩
  | none => cases unknown

theorem rowGrant_of_granted
    (unflagged : input.intent.Unflagged) (granted : (beginKind stored input now).grants = true) :
    RowGrant stored input now := by
  have policy := decideAttempt_granted unflagged granted
  rw [← beginKind_eq] at policy
  generalize decided : beginKind stored input now = kind at policy
  cases policy with
  | fresh absent =>
      refine .idle ?_ decided
      intro row found
      subst found
      have untouched : row.state = .pending := (snapshot_absent absent).2
      rw [untouched]
      rfl
  | retry settled =>
      refine .idle ?_ decided
      intro row found
      subst found
      have definite : (row.snapshot now).effectiveState.definite = true := by
        rcases settled with pending | failed
        · exact congrArg OpState.definite pending
        · exact congrArg OpState.definite failed
      exact effectiveState_definite definite
  | dedup unknown same mode inTime =>
      obtain ⟨row, found, locked⟩ := stored_of_unknown unknown
      rw [locked] at unknown same inTime
      exact .dedup row found unknown same mode inTime decided
  | lookup unknown same mode =>
      obtain ⟨row, found, locked⟩ := stored_of_unknown unknown
      rw [locked] at unknown same
      exact .lookup row found unknown same mode decided

theorem refused_of_indefinite
    (unflagged : input.intent.Unflagged) (indefinite : row.state.definite = false)
    (excluded : row.payloadSHA256 = input.intent.payloadSHA256 →
      ¬(input.intent.mode = .idempotent ∧
          (row.snapshot now).retentionOver input.intent.retentionHours = false ∨
        input.intent.mode = .lookup)) :
    (beginKind (some row) input now).grants = false := by
  cases granted : (beginKind (some row) input now).grants with
  | false => rfl
  | true =>
      cases rowGrant_of_granted unflagged granted with
      | idle idle kind =>
          have settled := idle row rfl
          rw [indefinite] at settled
          cases settled
      | dedup stored found unknown same mode inTime kind =>
          cases found
          exact absurd (Or.inl ⟨mode, inTime⟩) (excluded same)
      | lookup stored found unknown same mode kind =>
          cases found
          exact absurd (Or.inr mode) (excluded same)

theorem state_of_unknown (unknown : (row.snapshot now).effectiveState = .unknown) :
    row.state = .unknown ∨ row.state = .sending ∧ (row.snapshot now).leaseExpired = true := by
  unfold OpSnapshot.effectiveState at unknown
  split at unknown
  · rename_i expired
    exact Or.inr expired
  · exact Or.inl unknown

theorem state_of_effective {state : OpState}
    (known : state ≠ .unknown) (effective : (row.snapshot now).effectiveState = state) :
    row.state = state := by
  unfold OpSnapshot.effectiveState at effective
  split at effective
  · exact absurd effective.symm known
  · exact effective

private theorem live_of_sending (sending : (row.snapshot now).effectiveState = .sending) :
    row.state = .sending ∧ (row.snapshot now).leaseExpired = false := by
  have state : row.state = .sending := state_of_effective (by decide) sending
  refine ⟨state, ?_⟩
  cases expired : (row.snapshot now).leaseExpired with
  | false => rfl
  | true => simp [OpSnapshot.effectiveState, state, expired] at sending

theorem beginKind_busy (sending : row.state = .sending)
    (live : (row.snapshot now).leaseExpired = false) (input : BeginInput) :
    beginKind (some row) input now = .busy := by
  have used : row.state ≠ .pending := by
    rw [sending]
    decide
  apply decideAttempt_busy
  · exact snapshot_rowExists_of_ne_pending now used
  · simp [lockedRow, OpSnapshot.effectiveState, sending, live]

theorem beginKind_unknown (unknown : (row.snapshot now).effectiveState = .unknown)
    (same : row.payloadSHA256 = input.intent.payloadSHA256) :
    beginKind (some row) input now =
      if input.intent.confirmNotApplied = true then .send
      else policyKind input.intent.mode
        ((row.snapshot now).retentionOver input.intent.retentionHours) := by
  have used : row.state ≠ .pending := by
    rcases state_of_unknown unknown with state | ⟨state, _⟩ <;> rw [state] <;> decide
  have present := snapshot_rowExists_of_ne_pending now used
  change (decideAttempt (row.snapshot now) input.intent).kind = _
  cases confirmed : input.intent.confirmNotApplied with
  | true => simp [decideAttempt, present, unknown, confirmed]
  | false =>
      cases mode : input.intent.mode with
      | idempotent =>
          cases past : (row.snapshot now).retentionOver input.intent.retentionHours <;>
            simp [decideAttempt, present, unknown, confirmed, same, mode, past, policyKind]
      | _ => simp [decideAttempt, present, unknown, confirmed, same, mode, policyKind]

theorem snapshot_closed {state : OpState} (now : Time)
    (found : row.state = state) (used : state ≠ .pending) (closed : state ≠ .sending) :
    (row.snapshot now).rowExists = true ∧ (row.snapshot now).effectiveState = state := by
  subst found
  exact ⟨snapshot_rowExists_of_ne_pending now used,
    OpSnapshot.effectiveState_of_ne_sending closed⟩

theorem beginKind_unresolved (stopped : row.state = .unresolved) :
    beginKind (some row) input now =
      if input.intent.confirmNotApplied = true then .send else .unresolved := by
  obtain ⟨present, effective⟩ := snapshot_closed now stopped (by decide) (by decide)
  change (decideAttempt (row.snapshot now) input.intent).kind = _
  cases confirmed : input.intent.confirmNotApplied <;>
    simp [decideAttempt, present, effective, confirmed]

theorem beginKind_succeeded
    (done : row.state = .succeeded) (same : row.payloadSHA256 = input.intent.payloadSHA256) :
    beginKind (some row) input now = if input.intent.resend = true then .send else .replay := by
  obtain ⟨present, effective⟩ := snapshot_closed now done (by decide) (by decide)
  change (decideAttempt (row.snapshot now) input.intent).kind = _
  cases again : input.intent.resend <;> simp [decideAttempt, present, effective, again, same]

theorem kind_of_refusal (refused : (beginKind (some row) input now).grants = false) :
    beginKind (some row) input now = .unresolved ∨
      row.state = .succeeded ∧ row.payloadSHA256 = input.intent.payloadSHA256 ∧
        beginKind (some row) input now = .replay ∨
      row.state = .sending ∧ (row.snapshot now).leaseExpired = false ∧
        beginKind (some row) input now = .busy := by
  cases decided : beginKind (some row) input now with
  | send => rw [decided] at refused; cases refused
  | lookupThenSend => rw [decided] at refused; cases refused
  | unresolved => exact Or.inl rfl
  | replay =>
      obtain ⟨effective, same⟩ := succeeded_of_replay decided
      exact Or.inr (Or.inl ⟨state_of_effective (by decide) effective, same, rfl⟩)
  | busy =>
      obtain ⟨sending, live⟩ := live_of_sending (sending_of_busy decided)
      exact Or.inr (Or.inr ⟨sending, live, rfl⟩)

theorem finishRow_eq_some {attempt : AttemptId} {f : FinishInput}
    {after : OperationRow} (recorded : finishRow stored attempt f = some after) :
    ∃ row, stored = some row ∧ row.leaseAttempt = some attempt ∧ after = row.finished f := by
  cases stored with
  | none => cases recorded
  | some row =>
      simp only [finishRow] at recorded
      split at recorded
      · rename_i holder
        exact ⟨row, rfl, holder, (Option.some.inj recorded).symm⟩
      · cases recorded

/-! ### The tables -/

structure Ledger where
  operations : OperationKey → Option OperationRow
  operationAttempts : List OperationAttempt

def insertAttempt (attempts : List OperationAttempt) (entry : OperationAttempt) :
    List OperationAttempt :=
  if attempts.any (fun a => a.jobID == entry.jobID && a.attemptID == entry.attemptID) then
    attempts
  else attempts ++ [entry]

def Ledger.begin (ledger : Ledger) (input : BeginInput) (now : Time) : BeginResult × Ledger :=
  let key := input.op.key
  let (result, row) := beginRow (ledger.operations key) input now
  let attempts :=
    match beginAttempt input now result with
    | none => ledger.operationAttempts
    | some entry => insertAttempt ledger.operationAttempts entry
  (result, { operations := Function.update ledger.operations key (some row)
             operationAttempts := attempts })

/-- The second statement of `finish`, run only when the first found the row. -/
def finishAttempt (op : OperationRef) (attempt : AttemptId) (f : FinishInput) (now : Time)
    (entry : OperationAttempt) : OperationAttempt :=
  if entry.jobID = op.jobID ∧ entry.attemptID = attempt then
    { entry with
      finishedAt := some now
      outcome := some f.outcome
      httpStatus := zeroToNil f.httpStatus
      error := nullIf f.error }
  else entry

/-- `none` is the rolled-back transaction that reports `errLeaseLost`. -/
def Ledger.finish (ledger : Ledger) (op : OperationRef) (attempt : AttemptId)
    (f : FinishInput) (now : Time) : Option Ledger :=
  match finishRow (ledger.operations op.key) attempt f with
  | none => none
  | some row => some
      { operations := Function.update ledger.operations op.key (some row)
        operationAttempts := ledger.operationAttempts.map (finishAttempt op attempt f now) }

end MigrationPlatform.Delivery
