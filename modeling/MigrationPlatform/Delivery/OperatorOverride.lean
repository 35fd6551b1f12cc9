/-
Operator overrides and the automatic retries of the attempt they were meant for.

`Resend` and `ConfirmNotApplied` are part of the activity's input, so every
attempt that Temporal makes of the activity carries them. They speak of what
was there before the first of these attempts, and `decideAttempt` cannot tell:
it honours them again after an attempt of their own left an ambiguous outcome
or a success behind. The condition under which they do no harm is exact.
-/

import MigrationPlatform.Delivery.AttemptInvariants

namespace MigrationPlatform.Delivery

variable {plan : AttemptPlan} {w next : World} {action : Action}

/-- The attempt sent a request and ended with an unknown outcome or a crash. -/
def Ambiguous (w : World) (attempt : AttemptId) : Prop :=
  w.phase attempt = .crashed ∨
    ∃ result ∈ answersOf attempt w.history, classify result = .unknown result

instance (w : World) (attempt : AttemptId) : Decidable (Ambiguous w attempt) :=
  inferInstanceAs (Decidable (_ ∨ _))

def LeftAmbiguous (w : World) : Prop := ∃ attempt ∈ writers w.history, Ambiguous w attempt

instance (w : World) : Decidable (LeftAmbiguous w) :=
  inferInstanceAs (Decidable (∃ _ ∈ _, _))

def Recorded (history : List Event) (f : FinishInput) : Prop :=
  f.state = .succeeded ∧ ∃ attempt, f ∈ recordsOf attempt history

structure BoundByPolicy (row : Option OperationRow) (input : BeginInput) (now : Time) : Prop where
  same : beginKind row input now =
    beginKind row { input with intent := input.intent.policy } now
  unknown : ∀ stored, row = some stored → (stored.snapshot now).effectiveState = .unknown →
    beginKind row input now = policyKind input.intent.mode
      ((stored.snapshot now).retentionOver input.intent.retentionHours)
  unresolved : ∀ stored, row = some stored → stored.state = .unresolved →
    beginKind row input now = .unresolved

structure ReplaysReceipt (row : Option OperationRow) (input : BeginInput) (now : Time)
    (f : FinishInput) : Prop where
  replays : beginKind row input now = .replay
  status : (beginRow row input now).1.snapshot.receiptStatus = f.httpStatus
  receipt : (beginRow row input now).1.snapshot.receipt = nullIfJSON f.receipt

/-- An override covers only what happened before it. -/
def OverrideSpent (plan : AttemptPlan) (w : World) : Action → Prop
  | .begin attempt now _ =>
      (LeftAmbiguous w → BoundByPolicy w.row (plan.beginInput attempt) now) ∧
        ∀ f, Recorded w.history f → ReplaysReceipt w.row (plan.beginInput attempt) now f
  | _ => True

def ConfirmIdle (intent : AttemptIntent) (now : Time) (row : OperationRow) : Prop :=
  (row.snapshot now).effectiveState ≠ .unresolved ∧
    ((row.snapshot now).effectiveState = .unknown →
      intent.mode = .idempotent ∧ (row.snapshot now).retentionOver intent.retentionHours = false)

/-- No attempt begins with a confirmation that its own kind made stale, and
none with `Resend` after a success of its own kind. -/
def OverrideUnused (plan : AttemptPlan) (w : World) : Action → Prop
  | .begin _ now _ =>
      (plan.intent.confirmNotApplied = true → LeftAmbiguous w →
        ∀ row, w.row = some row → ConfirmIdle plan.intent now row) ∧
      (plan.intent.resend = true → ∀ f, ¬Recorded w.history f)
  | _ => True

private theorem beginKind_unread {row : OperationRow} {input : BeginInput} {now : Time}
    (settled : (row.snapshot now).effectiveState ≠ .unknown)
    (free : row.state ≠ .unresolved) (open_ : row.state ≠ .succeeded) :
    beginKind (some row) input now =
      beginKind (some row) { input with intent := input.intent.policy } now := by
  change (decideAttempt (row.snapshot now) input.intent).kind =
    (decideAttempt (row.snapshot now) input.intent.policy).kind
  cases present : (row.snapshot now).rowExists with
  | false => simp [decideAttempt, present]
  | true =>
      cases effective : (row.snapshot now).effectiveState with
      | unknown => exact absurd effective settled
      | unresolved => exact absurd (state_of_effective (by decide) effective) free
      | succeeded => exact absurd (state_of_effective (by decide) effective) open_
      | _ => simp [decideAttempt, present, effective]

private theorem policyKind_eq_send {mode : DeliveryMode} {past : Bool}
    (sends : policyKind mode past = .send) : mode = .idempotent ∧ past = false := by
  cases mode with
  | idempotent =>
      cases past with
      | false => exact ⟨rfl, rfl⟩
      | true => cases sends
  | _ => cases sends

private theorem bound_of_unknown {row : OperationRow} {input : BeginInput} {now : Time}
    (unknown : (row.snapshot now).effectiveState = .unknown)
    (same : row.payloadSHA256 = input.intent.payloadSHA256) :
    BoundByPolicy (some row) input now ↔
      (input.intent.confirmNotApplied = true → ConfirmIdle input.intent now row) := by
  have flagged := beginKind_unknown unknown same
  have policy := @beginKind_unknown row now { input with intent := input.intent.policy }
    unknown same
  have open_ : (row.snapshot now).effectiveState ≠ .unresolved := by
    rw [unknown]
    decide
  constructor
  · intro bound confirmed
    have kind := bound.unknown row rfl unknown
    rw [flagged, if_pos confirmed] at kind
    exact ⟨open_, fun _ => policyKind_eq_send kind.symm⟩
  · intro idle
    have kind : beginKind (some row) input now = policyKind input.intent.mode
        ((row.snapshot now).retentionOver input.intent.retentionHours) := by
      rw [flagged]
      split
      · rename_i confirmed
        obtain ⟨mode, inTime⟩ := (idle confirmed).2 unknown
        rw [mode, inTime]
        rfl
      · rfl
    constructor
    · rw [kind, policy]
      rfl
    · intro stored found _
      cases found
      exact kind
    · intro stored found stopped
      cases found
      rcases state_of_unknown unknown with state | ⟨state, _⟩ <;> rw [stopped] at state <;>
        cases state

private theorem bound_of_unresolved {row : OperationRow} {input : BeginInput} {now : Time}
    (stopped : row.state = .unresolved) :
    BoundByPolicy (some row) input now ↔
      (input.intent.confirmNotApplied = true → ConfirmIdle input.intent now row) := by
  have flagged := @beginKind_unresolved row now input stopped
  have effective : (row.snapshot now).effectiveState = .unresolved := by
    simp [OpSnapshot.effectiveState, stopped]
  constructor
  · intro bound confirmed
    have kind := bound.unresolved row rfl stopped
    rw [flagged, if_pos confirmed] at kind
    cases kind
  · intro idle
    have kind : beginKind (some row) input now = .unresolved := by
      rw [flagged]
      split
      · rename_i confirmed
        exact absurd effective (idle confirmed).1
      · rfl
    refine ⟨?_, ?_, fun _ _ _ => kind⟩
    · rw [kind, @beginKind_unresolved row now { input with intent := input.intent.policy } stopped]
      rfl
    · intro stored found unknown
      cases found
      rw [effective] at unknown
      cases unknown

theorem bound_iff_confirmIdle {row : OperationRow} {input : BeginInput} {now : Time}
    (same : row.payloadSHA256 = input.intent.payloadSHA256)
    (noResend : row.state = .succeeded → input.intent.resend = false) :
    BoundByPolicy (some row) input now ↔
      (input.intent.confirmNotApplied = true → ConfirmIdle input.intent now row) := by
  by_cases unknown : (row.snapshot now).effectiveState = .unknown
  · exact bound_of_unknown unknown same
  · by_cases stopped : row.state = .unresolved
    · exact bound_of_unresolved stopped
    · -- neither override is read here, or `Resend` is not set
      have unread : beginKind (some row) input now =
          beginKind (some row) { input with intent := input.intent.policy } now := by
        by_cases done : row.state = .succeeded
        · rw [beginKind_succeeded done same, noResend done,
            @beginKind_succeeded row now { input with intent := input.intent.policy } done same]
          rfl
        · exact beginKind_unread unknown stopped done
      constructor
      · intro _bound _confirmed
        refine ⟨?_, fun impossible => absurd impossible unknown⟩
        intro effective
        exact stopped (state_of_effective (by decide) effective)
      · intro _idle
        refine ⟨unread, ?_, ?_⟩
        · intro stored found impossible
          cases found
          exact absurd impossible unknown
        · intro stored found impossible
          cases found
          exact absurd impossible stopped

/-- Once granted, the row carries the payload of these attempts, and a success
in it is one of theirs. -/
def OwnRow (plan : AttemptPlan) (row : Option OperationRow) (history : List Event) : Prop :=
  grantees history ≠ [] → ∃ stored, row = some stored ∧
    stored.payloadSHA256 = plan.intent.payloadSHA256 ∧
    (stored.state = .succeeded → ∃ f, Recorded history f)

def SuccessKept (plan : AttemptPlan) (row : Option OperationRow) (history : List Event) : Prop :=
  ∀ f, Recorded history f →
    f.httpStatus ≠ 0 ∧ ∃ before : OperationRow, row = some (before.finished f) ∧
      before.payloadSHA256 = plan.intent.payloadSHA256

structure OverrideSound (plan : AttemptPlan) (w : World) : Prop where
  traced : Traced (fun _ => plan) w
  writers : WritersSound w
  closes : ClosesSound w
  own : OwnRow plan w.row w.history
  kept : SuccessKept plan w.row w.history

theorem OverrideSound.start (row : Option OperationRow) (clock : Time) :
    OverrideSound plan (.start row clock) := by
  refine ⟨Traced.start row clock, ⟨?_, List.nodup_nil⟩, ?_, ?_, ?_⟩
  · intro attempt member
    cases member
  · intro attempt completion tries impossible
    cases impossible
  · intro granted
    exact absurd rfl granted
  · rintro f ⟨_, attempt, member⟩
    cases member

private theorem ownRow_begun {row : Option OperationRow} {history : List Event}
    (own : OwnRow plan row history) (attempt : AttemptId) (now : Time) :
    OwnRow plan (some (beginRow row (plan.beginInput attempt) now).2)
      (.begun attempt now (beginKind row (plan.beginInput attempt) now) :: history) := by
  intro someone
  cases granted : (beginKind row (plan.beginInput attempt) now).grants with
  | true =>
      rw [beginRow_granted granted]
      refine ⟨_, rfl, rfl, ?_⟩
      intro impossible
      cases impossible
  | false =>
      rw [grantees, if_neg (by simp [granted])] at someone
      obtain ⟨stored, found, digest, done⟩ := own someone
      subst found
      rcases beginRow_not_granted granted with kept | ⟨_, stopped⟩
      · rw [kept]
        exact ⟨stored, rfl, digest, done⟩
      · rw [stopped]
        refine ⟨_, rfl, digest, ?_⟩
        intro impossible
        cases impossible

theorem ownRow_step (own : OwnRow plan w.row w.history)
    (taken : Transition (fun _ => plan) w action next) : OwnRow plan next.row next.history := by
  apply ledger_step (OwnRow plan) taken own
  · intro event silent
    cases event with
    | begun attempt now kind => exact False.elim silent
    | recorded attempt input => exact False.elim silent
    | _ => exact own
  · intro attempt now tx _action _ready _past
    exact ownRow_begun own attempt now
  · intro attempt tx completion tries row _action found stored holder someone
    obtain ⟨before, same, digest, _⟩ := own someone
    cases stored.symm.trans same
    refine ⟨_, rfl, digest, ?_⟩
    intro done
    exact ⟨_, done, attempt, by simp [recordsOf]⟩

private theorem successKept_begun {row : Option OperationRow} {history : List Event}
    (kept : SuccessKept plan row history) {attempt : AttemptId} {now : Time}
    (spent : plan.intent.resend = true → ∀ f, ¬Recorded history f) :
    SuccessKept plan (some (beginRow row (plan.beginInput attempt) now).2)
      (.begun attempt now (beginKind row (plan.beginInput attempt) now) :: history) := by
  intro f recorded
  obtain ⟨status, before, found, digest⟩ := kept f recorded
  refine ⟨status, before, ?_, digest⟩
  have replay : beginKind (some (before.finished f)) (plan.beginInput attempt) now = .replay := by
    rw [beginKind_succeeded recorded.1 digest]
    cases again : plan.intent.resend with
    | false => simp [AttemptPlan.beginInput, again]
    | true => exact absurd recorded (spent again f)
  rw [found, beginRow_replay replay]

private theorem successKept_recorded (sound : OverrideSound plan w) {attempt : AttemptId}
    {completion : Completion} {tries : Nat} {row : OperationRow}
    (found : w.phase attempt = .finishing completion tries) (stored : w.row = some row)
    (holder : row.leaseAttempt = some attempt) :
    SuccessKept plan (some (row.finished (completion.finishInput plan.intent.mode)))
      (.recorded attempt (completion.finishInput plan.intent.mode) :: w.history) := by
  rintro f ⟨done, author, member⟩
  have fresh : ¬Recorded w.history f := by
    intro older
    obtain ⟨_, before, same, _⟩ := sound.kept f older
    cases stored.symm.trans same
    cases holder
  have new : f = completion.finishInput plan.intent.mode := by
    by_cases same : attempt = author
    · rw [recordsOf, if_pos same] at member
      rcases List.mem_cons.mp member with new | older
      · exact new
      · exact absurd ⟨done, author, older⟩ fresh
    · rw [recordsOf, if_neg same] at member
      exact absurd ⟨done, author, member⟩ fresh
  subst new
  obtain ⟨before, same, digest, _⟩ := sound.own (List.ne_nil_of_mem (traced_phase sound.traced found).1)
  cases stored.symm.trans same
  exact ⟨(sound.closes attempt completion tries found).status_ne_zero done, row, rfl, digest⟩

theorem overrideSound_step (unused : OverrideUnused plan w action) (sound : OverrideSound plan w)
    (taken : Transition (fun _ => plan) w action next) : OverrideSound plan next := by
  refine ⟨traced_step sound.traced taken, writersSound_step sound.traced sound.writers taken,
    closesSound_step sound.closes taken, ownRow_step sound.own taken, ?_⟩
  apply ledger_step (SuccessKept plan) taken sound.kept
  · intro event silent
    cases event with
    | begun attempt now kind => exact False.elim silent
    | recorded attempt input => exact False.elim silent
    | _ => exact sound.kept
  · intro attempt now tx same _ready _past
    subst same
    exact successKept_begun sound.kept unused.2
  · intro attempt tx completion tries row _action found stored holder
    exact successKept_recorded sound found stored holder

/-! ### The exact condition -/

section Condition

variable {attempt : AttemptId} {now : Time} {tx : TxOutcome}

theorem OverrideSound.replays_iff (sound : OverrideSound plan w) {f : FinishInput}
    (recorded : Recorded w.history f) :
    ReplaysReceipt w.row (plan.beginInput attempt) now f ↔ plan.intent.resend = false := by
  obtain ⟨status, before, found, digest⟩ := sound.kept f recorded
  have decided := @beginKind_succeeded (before.finished f) now (plan.beginInput attempt)
    recorded.1 digest
  rw [found]
  constructor
  · intro replays
    have kind := replays.replays
    rw [decided] at kind
    cases again : plan.intent.resend with
    | false => rfl
    | true => simp [AttemptPlan.beginInput, again] at kind
  · intro noResend
    constructor
    · rw [decided]
      simp [AttemptPlan.beginInput, noResend]
    · simp [beginRow, lockedRow, OperationRow.snapshot, OperationRow.finished, zeroToNil, status]
    · simp [beginRow, lockedRow, OperationRow.snapshot, OperationRow.finished, recorded.1]

theorem OverrideSound.bound_iff (sound : OverrideSound plan w)
    (noSuccess : plan.intent.resend = true → ∀ f, ¬Recorded w.history f)
    (ambiguous : LeftAmbiguous w) :
    BoundByPolicy w.row (plan.beginInput attempt) now ↔
      (plan.intent.confirmNotApplied = true →
        ∀ row, w.row = some row → ConfirmIdle plan.intent now row) := by
  obtain ⟨author, wrote, _⟩ := ambiguous
  obtain ⟨row, stored, digest, done⟩ :=
    sound.own (List.ne_nil_of_mem (sound.writers.granted author wrote))
  have noResend : row.state = .succeeded → plan.intent.resend = false := by
    intro succeeded
    obtain ⟨f, recorded⟩ := done succeeded
    cases again : plan.intent.resend with
    | false => rfl
    | true => exact absurd recorded (noSuccess again f)
  rw [stored, @bound_iff_confirmIdle row (plan.beginInput attempt) now digest noResend]
  constructor
  · intro idle confirmed other found
    cases found
    exact idle confirmed
  · intro idle confirmed
    exact idle confirmed row rfl

private theorem OverrideSound.spent_iff (sound : OverrideSound plan w) :
    OverrideSpent plan w (.begin attempt now tx) ↔ OverrideUnused plan w (.begin attempt now tx) := by
  unfold OverrideSpent OverrideUnused
  constructor
  · rintro ⟨bound, replays⟩
    have noSuccess : plan.intent.resend = true → ∀ f, ¬Recorded w.history f := by
      intro again f recorded
      have noResend := (sound.replays_iff recorded).mp (replays f recorded)
      rw [again] at noResend
      cases noResend
    refine ⟨?_, noSuccess⟩
    intro confirmed ambiguous
    exact (sound.bound_iff noSuccess ambiguous).mp (bound ambiguous) confirmed
  · rintro ⟨idle, noSuccess⟩
    constructor
    · intro ambiguous
      exact (sound.bound_iff noSuccess ambiguous).mpr (fun confirmed => idle confirmed ambiguous)
    · intro f recorded
      apply (sound.replays_iff recorded).mpr
      cases again : plan.intent.resend with
      | false => rfl
      | true => exact absurd recorded (noSuccess again f)

end Condition

/-- Over all attempts of one activity, from any ledger row and whatever happens
to them. -/
theorem override_spent_iff_unused (plan : AttemptPlan) (row : Option OperationRow) (clock : Time)
    (actions : List Action) :
    GuardedRuns.Obeys (World.step (fun _ => plan)) (OverrideSpent plan) (.start row clock) actions ↔
      GuardedRuns.Obeys (World.step (fun _ => plan)) (OverrideUnused plan) (.start row clock)
        actions := by
  refine GuardedRuns.Obeys.iff_of_invariant ?_ ?_ actions _ (@OverrideSound.start plan row clock)
  · intro before action after unused sound taken
    exact overrideSound_step unused sound (step_transition taken)
  · intro before action sound
    cases action with
    | begin attempt now tx => exact sound.spent_iff
    | _ => exact Iff.rfl

def confirmedPlan : AttemptPlan :=
  { op := { jobID := 7, rowIndex := 3, stepIndex := 0, stepName := "main" }
    operationKey := "k1"
    intent :=
      { payloadSHA256 := "p1", mode := .manual, retentionHours := 24
        resend := false, confirmNotApplied := true } }

def unresolvedRow : OperationRow :=
  { stepName := "main", operationKey := "k1", payloadSHA256 := "p1", state := .unresolved
    attempts := 1, firstSentAt := some 0 }

/-- The confirmed attempt sends and dies; the next attempt of the activity sends again. -/
def confirmedTwice : List Action :=
  [.begin "retry:1:1" 0 .acknowledged, .write "retry:1:1", .crash "retry:1:1",
    .tick operationLease, .begin "retry:1:2" operationLease .acknowledged, .write "retry:1:2"]

def resendPlan : AttemptPlan :=
  { confirmedPlan with
    intent :=
      { payloadSHA256 := "p1", mode := .manual, retentionHours := 24
        resend := true, confirmNotApplied := false } }

def succeededRow : OperationRow :=
  { stepName := "main", operationKey := "k1", payloadSHA256 := "p1", state := .succeeded
    attempts := 1, firstSentAt := some 0, receiptStatus := some 201 }

/-- The re-sent request succeeds, but the acknowledgement of its record is lost
and the second try finds the lease gone; the next attempt sends once more. -/
def resentTwice : List Action :=
  [.begin "retry:1:1" 0 .acknowledged, .write "retry:1:1",
    .answer "retry:1:1" (.response 201 "null" "(empty body)"),
    .finish "retry:1:1" (.ackLost "connection reset"), .finish "retry:1:1" .acknowledged,
    .begin "retry:1:2" 0 .acknowledged, .write "retry:1:2"]

theorem override_honoured_again :
    (∃ w, World.run (fun _ => confirmedPlan) (.start (some unresolvedRow) 0) confirmedTwice =
        some w ∧ writers w.history = ["retry:1:2", "retry:1:1"] ∧
        ¬GuardedRuns.Obeys (World.step (fun _ => confirmedPlan)) (OverrideSpent confirmedPlan)
          (.start (some unresolvedRow) 0) confirmedTwice) ∧
      ∃ w, World.run (fun _ => resendPlan) (.start (some succeededRow) 0) resentTwice =
        some w ∧ writers w.history = ["retry:1:2", "retry:1:1"] ∧
        ¬GuardedRuns.Obeys (World.step (fun _ => resendPlan)) (OverrideSpent resendPlan)
          (.start (some succeededRow) 0) resentTwice := by
  constructor
  · refine ⟨_, rfl, by decide, ?_⟩
    intro obeys
    have last := (((obeys.tail rfl).tail rfl).tail rfl).tail rfl
    have bound := last.1.1 ⟨"retry:1:1", by decide, by decide⟩
    exact absurd bound.same (by decide)
  · refine ⟨_, rfl, by decide, ?_⟩
    intro obeys
    have last := ((((obeys.tail rfl).tail rfl).tail rfl).tail rfl).tail rfl
    have receipt := last.1.2
      { outcome := .responded, state := .succeeded, httpStatus := 201, receipt := "null" }
      ⟨rfl, "retry:1:1", by decide⟩
    exact absurd receipt.replays (by decide)

end MigrationPlatform.Delivery
