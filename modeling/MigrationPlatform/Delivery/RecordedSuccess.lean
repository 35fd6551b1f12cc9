/-
What becomes of a recorded success.

A succeeded row is held by nobody, so no finish can touch it, and a begin of the
same payload is answered by its receipt. A begin of another payload is refused
and stops the operation: a changed payload is a new intent and asks for a
decision. The receipt stays in the row, but from then on every begin is refused.
Neither way is anything granted again.
-/

import MigrationPlatform.Delivery.AttemptInvariants
import MigrationPlatform.Delivery.ChangedPayload

namespace MigrationPlatform.Delivery

variable {plan : AttemptId → AttemptPlan} {w next : World} {action : Action}

def ChangedBegin (plan : AttemptId → AttemptPlan) (digest : String) : List Event → Prop
  | [] => False
  | .begun attempt _ _ :: rest => digestOf plan attempt ≠ digest ∨ ChangedBegin plan digest rest
  | _ :: rest => ChangedBegin plan digest rest

/-- The row since it succeeded: as it was, or stopped by a changed payload. -/
def Remembered (plan : AttemptId → AttemptPlan) (success : OperationRow) (since : List Event)
    (row : Option OperationRow) : Prop :=
  ¬ChangedBegin plan success.payloadSHA256 since ∧ row = some success ∨
    ChangedBegin plan success.payloadSHA256 since ∧
      ∃ reason, row = some (success.refuse reason)

theorem begin_after_success {success : OperationRow} {input : BeginInput} (now : Time)
    (done : success.state = .succeeded) (unflagged : input.intent.Unflagged) :
    success.payloadSHA256 = input.intent.payloadSHA256 ∧
        beginKind (some success) input now = .replay ∧
        (beginRow (some success) input now).2 = success ∨
      success.payloadSHA256 ≠ input.intent.payloadSHA256 ∧
        beginKind (some success) input now = .unresolved ∧
        ∃ reason, (beginRow (some success) input now).2 = success.refuse reason := by
  have effective : (success.snapshot now).effectiveState = .succeeded := by
    simp [OpSnapshot.effectiveState, done]
  have present := snapshot_rowExists_of_ne_pending now
    (show success.state ≠ .pending by rw [done]; decide)
  have decided := decideAttempt_succeeded present effective unflagged.1
  by_cases same : success.payloadSHA256 = input.intent.payloadSHA256
  · have replay : beginKind (some success) input now = .replay :=
      decided.trans (if_pos same)
    exact Or.inl ⟨same, replay, beginRow_replay replay⟩
  · have stops : beginKind (some success) input now = .unresolved :=
      decided.trans (if_neg same)
    exact Or.inr ⟨same, stops, beginRow_unresolved stops⟩

theorem begin_after_stop {success : OperationRow} {input : BeginInput} (now : Time)
    (reason : String) (unflagged : input.intent.Unflagged) :
    beginKind (some (success.refuse reason)) input now = .unresolved ∧
      ∃ later, (beginRow (some (success.refuse reason)) input now).2 = success.refuse later := by
  have stops : beginKind (some (success.refuse reason)) input now = .unresolved := by
    rw [beginKind_unresolved rfl, unflagged.2]
    rfl
  exact ⟨stops, beginRow_unresolved stops⟩

/-- The world after a success: what happened since, and that nobody was granted. -/
def SinceSuccess (plan : AttemptId → AttemptPlan) (success : OperationRow) (base : List Event)
    (w : World) : Prop :=
  ∃ since, w.history = since ++ base ∧ grantees since = [] ∧
    Remembered plan success since w.row

private theorem remembered_begun {success : OperationRow} {since : List Event}
    {row : Option OperationRow} (done : success.state = .succeeded)
    (remembered : Remembered plan success since row) {attempt : AttemptId} (now : Time)
    (unflagged : (plan attempt).intent.Unflagged) :
    (beginKind row ((plan attempt).beginInput attempt) now).grants = false ∧
      Remembered plan success
        (.begun attempt now (beginKind row ((plan attempt).beginInput attempt) now) :: since)
        (some (beginRow row ((plan attempt).beginInput attempt) now).2) := by
  rcases remembered with ⟨unchanged, rfl⟩ | ⟨changed, reason, rfl⟩
  · rcases @begin_after_success success ((plan attempt).beginInput attempt) now done unflagged with
      ⟨same, replay, kept⟩ | ⟨different, stops, reason, stopped⟩
    · rw [kept, replay]
      refine ⟨rfl, Or.inl ⟨?_, rfl⟩⟩
      rintro (other | older)
      · exact other same.symm
      · exact unchanged older
    · rw [stopped, stops]
      exact ⟨rfl, Or.inr ⟨Or.inl (fun same => different same.symm), reason, rfl⟩⟩
  · obtain ⟨stops, later, stopped⟩ := @begin_after_stop success
      ((plan attempt).beginInput attempt) now reason unflagged
    rw [stopped, stops]
    exact ⟨rfl, Or.inr ⟨Or.inr changed, later, rfl⟩⟩

private theorem Remembered.not_held {success : OperationRow} {since : List Event}
    {row : OperationRow} {attempt : AttemptId} (released : success.leaseAttempt = none)
    (remembered : Remembered plan success since (some row)) :
    row.leaseAttempt ≠ some attempt := by
  intro holder
  rcases remembered with ⟨_, same⟩ | ⟨_, reason, same⟩
  · cases same
    rw [released] at holder
    cases holder
  · cases same
    cases holder

theorem sinceSuccess_step {success : OperationRow} {base : List Event}
    (unflagged : ∀ attempt, (plan attempt).intent.Unflagged) (done : success.state = .succeeded)
    (released : success.leaseAttempt = none) (sound : SinceSuccess plan success base w)
    (taken : Transition plan w action next) : SinceSuccess plan success base next := by
  obtain ⟨since, split, ungranted, remembered⟩ := sound
  cases taken with
  | tick elapsed => exact ⟨since, split, ungranted, remembered⟩
  | beginAborted attempt now message ready => exact ⟨since, split, ungranted, remembered⟩
  | begun attempt now tx phase ready past entered =>
      obtain ⟨refused, kept⟩ := remembered_begun done remembered now (unflagged attempt)
      refine ⟨.begun attempt now _ :: since, congrArg (List.cons _) split, ?_, kept⟩
      rw [grantees, if_neg (by simp [refused])]
      exact ungranted
  | lookedUp attempt reply deadline found =>
      exact ⟨.lookedUp attempt _ :: since, congrArg (List.cons _) split, ungranted, remembered⟩
  | wrote attempt deadline found =>
      exact ⟨.wrote attempt _ :: since, congrArg (List.cons _) split, ungranted, remembered⟩
  | neverWritten attempt message deadline found => exact ⟨since, split, ungranted, remembered⟩
  | answered attempt answer found =>
      exact ⟨.answered attempt _ :: since, congrArg (List.cons _) split, ungranted, remembered⟩
  | recorded attempt tx completion tries row phase found stored holder closing =>
      rw [stored] at remembered
      exact absurd holder (remembered.not_held released)
  | finishMissed attempt tx completion tries phase found missed =>
      exact ⟨since, split, ungranted, remembered⟩
  | abandoned attempt message completion tries phase found missed =>
      exact ⟨since, split, ungranted, remembered⟩
  | crashed attempt => exact ⟨since, split, ungranted, remembered⟩

theorem leaseSound_run {clock : Time} {actions : List Action}
    (ran : World.run plan (.start none clock) actions = some w) : LeaseSound w.row :=
  @GuardedRuns.invariant_of_run _ _ (World.step plan) (fun w => LeaseSound w.row)
    (fun _ _ _ sound taken => leaseSound_step sound (step_transition taken))
    actions _ w leaseSound_none ran

/-- The row of a success until a changed payload begins, and after that. -/
structure SuccessRemembered (plan : AttemptId → AttemptPlan) (success : OperationRow)
    (since : List Event) (w : World) : Prop where
  ungranted : grantees since = []
  kept : ¬ChangedBegin plan success.payloadSHA256 since →
    w.row = some success ∧ ∀ attempt now, digestOf plan attempt = success.payloadSHA256 →
      beginKind w.row ((plan attempt).beginInput attempt) now = .replay ∧
      (beginRow w.row ((plan attempt).beginInput attempt) now).1.snapshot.receiptStatus =
        success.receiptStatus.getD 0 ∧
      (beginRow w.row ((plan attempt).beginInput attempt) now).1.snapshot.receipt =
        success.receiptJson
  stopped : ChangedBegin plan success.payloadSHA256 since →
    (∃ row, w.row = some row ∧ row.state = .unresolved ∧
      row.payloadSHA256 = success.payloadSHA256 ∧ row.receiptStatus = success.receiptStatus ∧
      row.receiptJson = success.receiptJson) ∧
    ∀ attempt now, beginKind w.row ((plan attempt).beginInput attempt) now = .unresolved

theorem success_kept_until_changed_payload
    (unflagged : ∀ attempt, (plan attempt).intent.Unflagged)
    (clock : Time) (actions later : List Action) (w final : World) (success : OperationRow)
    (ran : World.run plan (.start none clock) actions = some w)
    (stored : w.row = some success) (done : success.state = .succeeded)
    (continued : World.run plan w later = some final) :
    ∃ since, final.history = since ++ w.history ∧ SuccessRemembered plan success since final := by
  have released : success.leaseAttempt = none := by
    have lease := leaseSound_run ran success stored
    cases holder : success.leaseAttempt with
    | none => rfl
    | some attempt =>
        have sending := lease.mp (by rw [holder]; rfl)
        rw [done] at sending
        cases sending
  have initial : SinceSuccess plan success w.history w :=
    ⟨[], rfl, rfl, Or.inl ⟨id, stored⟩⟩
  have sound : SinceSuccess plan success w.history final :=
    GuardedRuns.invariant_of_run
      (fun _ _ _ sound taken =>
        sinceSuccess_step unflagged done released sound (step_transition taken))
      later w final initial continued
  obtain ⟨since, split, ungranted, remembered⟩ := sound
  refine ⟨since, split, ungranted, ?_, ?_⟩
  · intro unchanged
    rcases remembered with ⟨_, row⟩ | ⟨changed, _⟩
    · refine ⟨row, ?_⟩
      intro attempt now same
      rw [row]
      rcases @begin_after_success success ((plan attempt).beginInput attempt) now done
          (unflagged attempt) with
        ⟨_, replay, _⟩ | ⟨different, _⟩
      · exact ⟨replay, rfl, rfl⟩
      · exact absurd same.symm different
    · exact absurd changed unchanged
  · intro changed
    rcases remembered with ⟨unchanged, _⟩ | ⟨_, reason, row⟩
    · exact absurd changed unchanged
    · refine ⟨⟨_, row, rfl, rfl, rfl, rfl⟩, ?_⟩
      intro attempt now
      rw [row]
      exact (@begin_after_stop success ((plan attempt).beginInput attempt) now reason
        (unflagged attempt)).1

/-- After the success the same payload replays, then the edited one begins. -/
def replayThenEdit : List Action :=
  [.begin "run:2:1" 0 .acknowledged, .begin "retry:1:1" 0 .acknowledged]

theorem success_remembered_past_edit :
    ∃ w final success, World.run editedPlan (.start none 0) (exchange "run:1:1" 0 201) = some w ∧
      w.row = some success ∧ success.state = .succeeded ∧
      World.run editedPlan w replayThenEdit = some final ∧
      ∃ since, final.history = since ++ w.history ∧
        SuccessRemembered editedPlan success since final := by
  refine ⟨_, _, _, rfl, rfl, rfl, rfl, ?_⟩
  exact success_kept_until_changed_payload editedPlan_unflagged 0 (exchange "run:1:1" 0 201)
    replayThenEdit _ _ _ rfl rfl rfl rfl

/-- A begin of an edited payload takes a succeeded operation out of its state,
and the payload that succeeded is not answered by its receipt any more. -/
theorem success_stopped_by_edit :
    ∃ w final success row, World.run editedPlan (.start none 0) (exchange "run:1:1" 0 201) =
        some w ∧ w.row = some success ∧ success.state = .succeeded ∧
      World.run editedPlan w replayThenEdit = some final ∧
      final.row = some row ∧ row.state = .unresolved ∧
      digestOf editedPlan "run:3:1" = success.payloadSHA256 ∧
      beginKind final.row ((editedPlan "run:3:1").beginInput "run:3:1") 0 = .unresolved :=
  ⟨_, _, _, _, rfl, rfl, rfl, rfl, rfl, rfl, by decide, by decide⟩

end MigrationPlatform.Delivery
