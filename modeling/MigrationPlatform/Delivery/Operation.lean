/-
The operation state machine for one attempt (`decideAttempt`).

An operation is the intent to apply one step to one row. An attempt that wants
to send it reads the ledger row as a snapshot and is told what it may do.
This module holds the decision alone; the ledger row and its transactions are in
`MigrationPlatform.Delivery.OperationLedger`.

Timestamps are microseconds, the resolution of a `timestamptz` column.
-/

import Mathlib.Tactic.Basic

namespace MigrationPlatform.Delivery

abbrev Time := Nat

def second : Time := 1000000

def hour : Time := 3600 * second

/-- The lease outlives the two-minute start-to-close timeout of `CallEndpoint`. -/
def operationLease : Time := (2 * 60 + 15) * second

abbrev AttemptId := String

/-- The `CHECK` constraint of the `operations` table admits the first six values;
`decideAttempt` still answers for any other text. -/
inductive OpState
  | pending
  | sending
  | succeeded
  | failed
  | unknown
  | unresolved
  | unrecognised (text : String)
deriving DecidableEq, Repr

def OpState.definite : OpState → Bool
  | .pending => true
  | .failed => true
  | _ => false

/-- `destination.delivery.mode`. The schema admits the first three. -/
inductive DeliveryMode
  | idempotent
  | lookup
  | manual
  | other (text : String)
deriving DecidableEq, Repr

/-- The ledger row as seen when an attempt starts. A null timestamp column is
Go's zero time, here `none`. -/
structure OpSnapshot where
  rowExists : Bool
  state : OpState
  payloadSHA256 : String
  attempts : Nat
  leaseAttempt : Option AttemptId
  leaseUntil : Option Time
  firstSentAt : Option Time
  receiptStatus : Nat
  receipt : Option String
  now : Time
deriving DecidableEq, Repr

structure AttemptIntent where
  payloadSHA256 : String
  mode : DeliveryMode
  retentionHours : Nat
  resend : Bool
  confirmNotApplied : Bool
deriving DecidableEq, Repr

inductive DecisionKind
  | send
  | lookupThenSend
  | replay
  | busy
  | unresolved
deriving DecidableEq, Repr

def DecisionKind.grants : DecisionKind → Bool
  | .send | .lookupThenSend => true
  | .replay | .busy | .unresolved => false

structure AttemptDecision where
  kind : DecisionKind
  reason : String := ""
deriving DecidableEq, Repr

/-- `!s.Now.Before(s.LeaseUntil)`; no instant is before the zero time. -/
def OpSnapshot.leaseExpired (s : OpSnapshot) : Bool :=
  match s.leaseUntil with
  | none => true
  | some leaseUntil => decide (leaseUntil ≤ s.now)

def OpSnapshot.effectiveState (s : OpSnapshot) : OpState :=
  if s.state = .sending ∧ s.leaseExpired = true then .unknown else s.state

/-- `!s.FirstSentAt.IsZero() && s.Now.Sub(s.FirstSentAt) > retention`. A clock
behind `firstSentAt` gives a negative duration in Go and zero here; neither
exceeds the retention. -/
def OpSnapshot.retentionOver (s : OpSnapshot) (retentionHours : Nat) : Bool :=
  match s.firstSentAt with
  | none => false
  | some firstSentAt => decide (s.now - firstSentAt > retentionHours * hour)

def decideAttempt (s : OpSnapshot) (intent : AttemptIntent) : AttemptDecision :=
  if s.rowExists = false then { kind := .send }
  else
    match s.effectiveState with
    | .pending => { kind := .send }
    | .failed => { kind := .send }
    | .sending =>
        { kind := .busy, reason := "another attempt is sending this operation" }
    | .succeeded =>
        if intent.resend = true then { kind := .send }
        else if s.payloadSHA256 = intent.payloadSHA256 then { kind := .replay }
        else
          { kind := .unresolved
            reason := "payload changed after the operation succeeded; the new payload is a new intent" }
    | .unresolved =>
        if intent.confirmNotApplied = true then { kind := .send }
        else
          { kind := .unresolved
            reason := "operation is unresolved; retry with confirm_not_applied once the destination shows no effect" }
    | .unknown =>
        if intent.confirmNotApplied = true then { kind := .send }
        else if s.payloadSHA256 ≠ intent.payloadSHA256 then
          { kind := .unresolved
            reason := "outcome of an earlier attempt is unknown and the payload has changed" }
        else
          match intent.mode with
          | .idempotent =>
              if s.retentionOver intent.retentionHours = true then
                { kind := .unresolved
                  reason := "outcome unknown and the first attempt is older than the " ++
                    toString intent.retentionHours ++ "h idempotency retention" }
              else { kind := .send }
          | .lookup => { kind := .lookupThenSend }
          | _ =>
              { kind := .unresolved
                reason := "outcome of an earlier attempt is unknown and the destination has no deduplication or lookup policy" }
    | .unrecognised text =>
        { kind := .unresolved, reason := "unrecognised operation state " ++ text.quote }

def policyKind (mode : DeliveryMode) (retentionOver : Bool) : DecisionKind :=
  match mode with
  | .idempotent => if retentionOver = true then .unresolved else .send
  | .lookup => .lookupThenSend
  | _ => .unresolved

def AttemptIntent.Unflagged (intent : AttemptIntent) : Prop :=
  intent.resend = false ∧ intent.confirmNotApplied = false

instance (intent : AttemptIntent) : Decidable intent.Unflagged :=
  inferInstanceAs (Decidable (_ ∧ _))

/-- The intent with both overrides removed: the delivery policy alone. -/
def AttemptIntent.policy (intent : AttemptIntent) : AttemptIntent :=
  { intent with resend := false, confirmNotApplied := false }

/-! ### When a decision grants -/

/-- Everything that an attempt without overrides can be granted on. -/
inductive PolicyGrant (s : OpSnapshot) (intent : AttemptIntent) : DecisionKind → Prop
  | fresh (absent : s.rowExists = false) : PolicyGrant s intent .send
  | retry (settled : s.effectiveState = .pending ∨ s.effectiveState = .failed) :
      PolicyGrant s intent .send
  | dedup (unknown : s.effectiveState = .unknown)
      (same : s.payloadSHA256 = intent.payloadSHA256) (mode : intent.mode = .idempotent)
      (inTime : s.retentionOver intent.retentionHours = false) : PolicyGrant s intent .send
  | lookup (unknown : s.effectiveState = .unknown)
      (same : s.payloadSHA256 = intent.payloadSHA256) (mode : intent.mode = .lookup) :
      PolicyGrant s intent .lookupThenSend

theorem decideAttempt_granted {s : OpSnapshot} {intent : AttemptIntent}
    (unflagged : intent.Unflagged) (granted : (decideAttempt s intent).kind.grants = true) :
    PolicyGrant s intent (decideAttempt s intent).kind := by
  obtain ⟨noResend, noConfirm⟩ := unflagged
  cases present : s.rowExists with
  | false =>
      have decided : (decideAttempt s intent).kind = .send := by
        simp [decideAttempt, present]
      rw [decided]
      exact .fresh present
  | true =>
      cases state : s.effectiveState with
      | pending =>
          have decided : (decideAttempt s intent).kind = .send := by
            simp [decideAttempt, present, state]
          rw [decided]
          exact .retry (Or.inl state)
      | failed =>
          have decided : (decideAttempt s intent).kind = .send := by
            simp [decideAttempt, present, state]
          rw [decided]
          exact .retry (Or.inr state)
      | sending => simp [decideAttempt, present, state, DecisionKind.grants] at granted
      | succeeded =>
          by_cases same : s.payloadSHA256 = intent.payloadSHA256 <;>
            simp [decideAttempt, present, state, noResend, same, DecisionKind.grants] at granted
      | unresolved =>
          simp [decideAttempt, present, state, noConfirm, DecisionKind.grants] at granted
      | unrecognised text =>
          simp [decideAttempt, present, state, DecisionKind.grants] at granted
      | unknown =>
          by_cases same : s.payloadSHA256 = intent.payloadSHA256
          · cases mode : intent.mode with
            | idempotent =>
                cases past : s.retentionOver intent.retentionHours with
                | true =>
                    simp [decideAttempt, present, state, noConfirm, same, mode, past,
                      DecisionKind.grants] at granted
                | false =>
                    have decided : (decideAttempt s intent).kind = .send := by
                      simp [decideAttempt, present, state, noConfirm, same, mode, past]
                    rw [decided]
                    exact .dedup state same mode past
            | lookup =>
                have decided : (decideAttempt s intent).kind = .lookupThenSend := by
                  simp [decideAttempt, present, state, noConfirm, same, mode]
                rw [decided]
                exact .lookup state same mode
            | manual =>
                simp [decideAttempt, present, state, noConfirm, same, mode,
                  DecisionKind.grants] at granted
            | other text =>
                simp [decideAttempt, present, state, noConfirm, same, mode,
                  DecisionKind.grants] at granted
          · simp [decideAttempt, present, state, noConfirm, same, DecisionKind.grants] at granted

theorem decideAttempt_busy {s : OpSnapshot} (intent : AttemptIntent)
    (present : s.rowExists = true) (held : s.effectiveState = .sending) :
    (decideAttempt s intent).kind = .busy := by
  simp [decideAttempt, present, held]

theorem decideAttempt_succeeded {s : OpSnapshot} {intent : AttemptIntent}
    (present : s.rowExists = true) (done : s.effectiveState = .succeeded)
    (noResend : intent.resend = false) :
    (decideAttempt s intent).kind =
      if s.payloadSHA256 = intent.payloadSHA256 then .replay else .unresolved := by
  by_cases same : s.payloadSHA256 = intent.payloadSHA256 <;>
    simp [decideAttempt, present, done, noResend, same]

theorem sending_of_busy {s : OpSnapshot} {intent : AttemptIntent}
    (busy : (decideAttempt s intent).kind = .busy) : s.effectiveState = .sending := by
  unfold decideAttempt at busy
  split at busy
  · cases busy
  · split at busy
    all_goals first
      | assumption
      | (repeat' split at busy) <;> cases busy

theorem succeeded_of_replay {s : OpSnapshot} {intent : AttemptIntent}
    (replay : (decideAttempt s intent).kind = .replay) :
    s.effectiveState = .succeeded ∧ s.payloadSHA256 = intent.payloadSHA256 := by
  unfold decideAttempt at replay
  split at replay
  · cases replay
  · split at replay
    all_goals repeat' split at replay
    all_goals first
      | cases replay; done
      | exact ⟨by assumption, by assumption⟩

theorem OpSnapshot.retentionOver_iff {s : OpSnapshot} {first : Time} (retentionHours : Nat)
    (dated : s.firstSentAt = some first) :
    s.retentionOver retentionHours = true ↔ retentionHours * hour < s.now - first := by
  simp [OpSnapshot.retentionOver, dated]

theorem OpSnapshot.effectiveState_of_ne_sending {s : OpSnapshot} (other : s.state ≠ .sending) :
    s.effectiveState = s.state := by
  simp [OpSnapshot.effectiveState, other]

end MigrationPlatform.Delivery
