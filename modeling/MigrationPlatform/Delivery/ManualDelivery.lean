/-
Delivery mode `manual` sends at most one request whose effect may exist.

The invariant is that an operation has at most one unsettled attempt, and none
while its row is absent, pending or failed. A manual begin is granted only on
such a row, so the one unsettled attempt is never joined by another. Nothing is
assumed about leases: a late holder may still send its own request, but nobody
was granted in its place.
-/

import MigrationPlatform.Delivery.AttemptInvariants

namespace MigrationPlatform.Delivery

variable {plan : AttemptId → AttemptPlan} {w next : World} {action : Action}

structure SoleClaimant (row : Option OperationRow) (history : List Event) : Prop where
  idle : Idle row → ∀ attempt, ¬Unsettled history attempt
  holder : ∀ stored, row = some stored → stored.state = .sending →
    ∀ attempt, Unsettled history attempt → stored.leaseAttempt = some attempt
  alone : ∀ left right, Unsettled history left → Unsettled history right → left = right

theorem not_idle_of {row : OperationRow} (indefinite : row.state.definite = false) :
    ¬Idle (some row) := by
  intro idle
  have settled := idle row rfl
  rw [indefinite] at settled
  cases settled

private theorem SoleClaimant.stopped {row : Option OperationRow} {history : List Event}
    (sole : SoleClaimant row history) (stored : OperationRow) (reason : String) :
    SoleClaimant (some (stored.refuse reason)) history := by
  refine ⟨fun idle => absurd idle (not_idle_of rfl), ?_, sole.alone⟩
  intro found same sending
  cases same
  cases sending

private theorem SoleClaimant.locked {row : Option OperationRow} {history : List Event}
    (sole : SoleClaimant row history) (input : BeginInput) :
    SoleClaimant (some (lockedRow row input)) history := by
  cases row with
  | some stored => exact sole
  | none =>
      have nobody : Idle none := fun stored impossible => by cases impossible
      refine ⟨fun _ => sole.idle nobody, ?_, sole.alone⟩
      intro stored found sending
      cases found
      cases sending

private theorem sole_granted {row : Option OperationRow} {history : List Event}
    (sole : SoleClaimant row history) (idle : Idle row) (input : BeginInput) (now : Time)
    (kind : DecisionKind) :
    SoleClaimant (some ((lockedRow row input).grant input now))
      (.begun input.attemptID now kind :: history) := by
  have only : ∀ attempt, Unsettled (.begun input.attemptID now kind :: history) attempt →
      attempt = input.attemptID := by
    intro attempt unsettled
    rcases unsettled_granted unsettled with same | older
    · exact same
    · exact False.elim (sole.idle idle attempt older)
  refine ⟨fun impossible => absurd impossible (not_idle_of rfl), ?_, ?_⟩
  · intro stored found _sending attempt unsettled
    cases found
    rw [only attempt unsettled]
    rfl
  · intro left right leftOpen rightOpen
    rw [only left leftOpen, only right rightOpen]

private theorem sole_recorded {row : OperationRow} {history : List Event}
    (sole : SoleClaimant (some row) history) (lease : LeaseSound (some row))
    {attempt : AttemptId} (holder : row.leaseAttempt = some attempt)
    (mode : DeliveryMode) (completion : Completion) :
    SoleClaimant (some (row.finished (completion.finishInput mode)))
      (.recorded attempt (completion.finishInput mode) :: history) := by
  have sending : row.state = .sending := (lease row rfl).mp (by rw [holder]; rfl)
  constructor
  · intro idle other unsettled
    obtain ⟨older, indefinite⟩ := unsettled_recorded.mp unsettled
    have sameHolder := sole.holder row rfl sending other older
    have same : attempt = other := Option.some.inj (holder.symm.trans sameHolder)
    have definite := idle _ rfl
    change (completion.finishInput mode).state.definite = true at definite
    rw [indefinite same] at definite
    cases definite
  · intro stored found stillSending
    cases found
    exact absurd stillSending (completion.finishInput_ne_sending mode)
  · intro left right leftOpen rightOpen
    exact sole.alone left right (unsettled_recorded.mp leftOpen).1
      (unsettled_recorded.mp rightOpen).1

structure ManualSound (plan : AttemptId → AttemptPlan) (w : World) : Prop where
  traced : Traced plan w
  writers : WritersSound w
  lease : LeaseSound w.row
  sole : SoleClaimant w.row w.history

theorem ManualSound.start (clock : Time) : ManualSound plan (.start none clock) := by
  refine ⟨Traced.start none clock, ⟨?_, List.nodup_nil⟩, leaseSound_none, ⟨?_, ?_, ?_⟩⟩
  · intro attempt member
    cases member
  · intro _idle attempt unsettled
    cases unsettled.1
  · intro stored impossible
    cases impossible
  · intro left right unsettled
    cases unsettled.1

theorem idle_of_manual_grant {row : Option OperationRow} {input : BeginInput} {now : Time}
    (manual : input.intent.mode = .manual) (unflagged : input.intent.Unflagged)
    (granted : (beginKind row input now).grants = true) : Idle row := by
  cases rowGrant_of_granted unflagged granted with
  | idle idle kind => exact idle
  | dedup stored found unknown same mode inTime kind =>
      rw [manual] at mode
      cases mode
  | lookup stored found unknown same mode kind =>
      rw [manual] at mode
      cases mode

theorem manualSound_step (manual : ∀ attempt, (plan attempt).intent.mode = .manual)
    (unflagged : ∀ attempt, (plan attempt).intent.Unflagged) (sound : ManualSound plan w)
    (taken : Transition plan w action next) : ManualSound plan next := by
  refine ⟨traced_step sound.traced taken, writersSound_step sound.traced sound.writers taken,
    leaseSound_step sound.lease taken, ?_⟩
  apply ledger_step SoleClaimant taken sound.sole
  · intro event silent
    constructor
    · intro idle attempt
      rw [unsettled_silent silent]
      exact sound.sole.idle idle attempt
    · intro stored found sending attempt
      rw [unsettled_silent silent]
      exact sound.sole.holder stored found sending attempt
    · intro left right
      rw [unsettled_silent silent, unsettled_silent silent]
      exact sound.sole.alone left right
  · intro attempt now tx _action ready past
    cases granted : (beginKind w.row ((plan attempt).beginInput attempt) now).grants with
    | true =>
        have idle : Idle w.row :=
          idle_of_manual_grant (manual attempt) (unflagged attempt) granted
        rw [beginRow_granted granted]
        exact sole_granted sound.sole idle _ now _
    | false =>
        have unchanged : SoleClaimant w.row
            (.begun attempt now (beginKind w.row ((plan attempt).beginInput attempt) now) ::
              w.history) := by
          constructor
          · intro idle other
            rw [unsettled_refused granted]
            exact sound.sole.idle idle other
          · intro stored found sending other
            rw [unsettled_refused granted]
            exact sound.sole.holder stored found sending other
          · intro left right
            rw [unsettled_refused granted, unsettled_refused granted]
            exact sound.sole.alone left right
        rcases beginRow_not_granted granted with kept | ⟨_, stopped⟩
        · rw [kept]
          exact unchanged.locked _
        · rw [stopped]
          exact unchanged.stopped _ _
  · intro attempt tx completion tries row _action found stored holder
    have sole := sound.sole
    have lease := sound.lease
    rw [stored] at sole lease
    exact sole_recorded sole lease holder _ completion

private theorem length_le_one_of_nodup {α : Type} {items : List α} (distinct : items.Nodup)
    (alone : ∀ left ∈ items, ∀ right ∈ items, left = right) : items.length ≤ 1 := by
  cases items with
  | nil => exact Nat.zero_le 1
  | cons first rest =>
      cases rest with
      | nil => exact Nat.le_refl 1
      | cons second rest =>
          have same := alone first (by simp) second (by simp)
          subst second
          exact absurd List.mem_cons_self (List.nodup_cons.mp distinct).1

private theorem kind_of_not_granted {kind : DecisionKind} (refused : kind.grants = false) :
    kind = .replay ∨ kind = .busy ∨ kind = .unresolved := by
  cases kind with
  | send => cases refused
  | lookupThenSend => cases refused
  | replay => exact Or.inl rfl
  | busy => exact Or.inr (Or.inl rfl)
  | unresolved => exact Or.inr (Or.inr rfl)

def possiblyApplied (history : List Event) : List AttemptId :=
  (writers history).filter (fun attempt => decide (EffectMayExist history attempt))

theorem ManualSound.unsettled_of_applied (sound : ManualSound plan w) {attempt : AttemptId}
    (applied : attempt ∈ possiblyApplied w.history) : Unsettled w.history attempt := by
  obtain ⟨wrote, effect⟩ := List.mem_filter.mp applied
  exact sound.traced.unsettled_of_effect (sound.writers.granted attempt wrote)
    (of_decide_eq_true effect)

/-- At most one request with a possible effect is ever sent, and once it is,
no begin of any attempt with any payload is granted again. -/
theorem manual_delivery_at_most_once
    (manual : ∀ attempt, (plan attempt).intent.mode = .manual)
    (unflagged : ∀ attempt, (plan attempt).intent.Unflagged)
    (clock : Time) (actions : List Action) (w : World)
    (ran : World.run plan (.start none clock) actions = some w) :
    (possiblyApplied w.history).length ≤ 1 ∧
      (possiblyApplied w.history ≠ [] → ∀ attempt now,
        beginKind w.row ((plan attempt).beginInput attempt) now = .replay ∨
        beginKind w.row ((plan attempt).beginInput attempt) now = .busy ∨
        beginKind w.row ((plan attempt).beginInput attempt) now = .unresolved) := by
  have sound : ManualSound plan w := by
    apply GuardedRuns.invariant_of_run _ actions _ w (ManualSound.start clock) ran
    intro before action after holds taken
    exact manualSound_step manual unflagged holds (step_transition taken)
  constructor
  · apply length_le_one_of_nodup (sound.writers.once.filter _)
    intro left leftApplied right rightApplied
    exact sound.sole.alone left right (sound.unsettled_of_applied leftApplied)
      (sound.unsettled_of_applied rightApplied)
  · intro applied attempt now
    apply kind_of_not_granted
    cases granted : (beginKind w.row ((plan attempt).beginInput attempt) now).grants with
    | false => rfl
    | true =>
        obtain ⟨author, member⟩ := List.exists_mem_of_ne_nil _ applied
        have idle : Idle w.row :=
          idle_of_manual_grant (manual attempt) (unflagged attempt) granted
        exact False.elim (sound.sole.idle idle author (sound.unsettled_of_applied member))

def manualPlan : AttemptPlan :=
  { op := { jobID := 7, rowIndex := 3, stepIndex := 0, stepName := "main" }
    operationKey := "k1"
    intent :=
      { payloadSHA256 := "p1", mode := .manual, retentionHours := 24
        resend := false, confirmNotApplied := false } }

/-- The first attempt dies after sending; the second comes past its lease. -/
def crashThenRetry : List Action :=
  [.begin "run:1:1" 0 .acknowledged, .write "run:1:1", .crash "run:1:1",
    .tick operationLease, .begin "run:1:2" operationLease .acknowledged]

theorem manual_delivery_after_crash :
    ∃ w, World.run (fun _ => manualPlan) (.start none 0) crashThenRetry = some w ∧
      (possiblyApplied w.history).length ≤ 1 ∧ possiblyApplied w.history ≠ [] ∧
      (beginKind w.row (manualPlan.beginInput "run:1:3") w.clock = .replay ∨
        beginKind w.row (manualPlan.beginInput "run:1:3") w.clock = .busy ∨
        beginKind w.row (manualPlan.beginInput "run:1:3") w.clock = .unresolved) := by
  refine ⟨_, rfl, ?_⟩
  have once := @manual_delivery_at_most_once (fun _ => manualPlan)
    (fun _ => rfl) (fun _ => ⟨rfl, rfl⟩) 0 crashThenRetry _ rfl
  exact ⟨once.1, by decide, once.2 (by decide) "run:1:3" _⟩

end MigrationPlatform.Delivery
