/-
A changed payload over a possibly applied request.

The ledger keeps one state and one digest per operation. A re-send that ends
with a definite refusal writes `pending` or `failed` over the state that an
earlier attempt of unknown outcome left, and the next begin no longer sees that
attempt. `resend_forgets_unknown` is such a run. In runs where no attempt is
closed that way while another one is still unsettled, the decision table of ADR
0003 holds for whole histories, not only for one decision.
-/

import MigrationPlatform.Delivery.AttemptInvariants

namespace MigrationPlatform.Delivery

variable {plan : AttemptId → AttemptPlan} {w next : World} {action : Action}

def grants : List Event → List (AttemptId × Time)
  | [] => []
  | .begun attempt now kind :: rest =>
      if kind.grants = true then (attempt, now) :: grants rest else grants rest
  | _ :: rest => grants rest

theorem mem_grantees_of_grants {history : List Event} {entry : AttemptId × Time}
    (member : entry ∈ grants history) : entry.1 ∈ grantees history := by
  induction history with
  | nil => cases member
  | cons event rest ih =>
      cases event with
      | begun attempt now kind =>
          cases granted : kind.grants with
          | false =>
              simp only [grants, grantees, granted, Bool.false_eq_true, if_false] at member ⊢
              exact ih member
          | true =>
              simp only [grants, grantees, granted, if_true, List.mem_cons] at member ⊢
              rcases member with same | older
              · exact Or.inl (congrArg Prod.fst same)
              · exact Or.inr (ih older)
      | _ => exact ih member

/-- A relation between every granted attempt and each unsettled one before it. -/
def AfterUnsettled (related : AttemptId × Time → AttemptId × Time → Prop)
    (history : List Event) : Prop :=
  (grants history).Pairwise
    (fun later earlier => Unsettled history earlier.1 → related later earlier)

variable {attempt : AttemptId}

section AfterUnsettled

variable {related : AttemptId × Time → AttemptId × Time → Prop} {history : List Event}

theorem afterUnsettled_silent {event : Event} (silent : event.Silent)
    (ordered : AfterUnsettled related history) : AfterUnsettled related (event :: history) := by
  have same : grants (event :: history) = grants history := by
    cases event with
    | begun attempt now kind => exact False.elim silent
    | recorded attempt input => exact False.elim silent
    | _ => rfl
  unfold AfterUnsettled
  rw [same]
  apply ordered.imp
  intro later earlier holds unsettled
  exact holds ((unsettled_silent silent history _).mp unsettled)

theorem afterUnsettled_refused {now : Time} {kind : DecisionKind}
    (refused : kind.grants = false) (ordered : AfterUnsettled related history) :
    AfterUnsettled related (.begun attempt now kind :: history) := by
  unfold AfterUnsettled
  rw [grants, if_neg (by simp [refused])]
  apply ordered.imp
  intro later earlier holds unsettled
  exact holds ((unsettled_refused refused).mp unsettled)

theorem afterUnsettled_granted {now : Time} {kind : DecisionKind}
    (granted : kind.grants = true) (fresh : attempt ∉ grantees history)
    (ordered : AfterUnsettled related history)
    (joins : ∀ earlier ∈ grants history, Unsettled history earlier.1 →
      related (attempt, now) earlier) :
    AfterUnsettled related (.begun attempt now kind :: history) := by
  have older : ∀ earlier ∈ grants history,
      Unsettled (.begun attempt now kind :: history) earlier.1 → Unsettled history earlier.1 := by
    intro earlier member unsettled
    rcases unsettled_granted unsettled with same | before
    · exact absurd (same ▸ mem_grantees_of_grants member) fresh
    · exact before
  unfold AfterUnsettled
  rw [grants, if_pos granted]
  apply List.pairwise_cons.mpr
  constructor
  · intro earlier member unsettled
    exact joins earlier member (older earlier member unsettled)
  · apply List.Pairwise.imp_of_mem _ ordered
    intro later earlier _laterMember member holds unsettled
    exact holds (older earlier member unsettled)

theorem afterUnsettled_recorded {f : FinishInput} (ordered : AfterUnsettled related history) :
    AfterUnsettled related (.recorded attempt f :: history) := by
  apply ordered.imp
  intro later earlier holds unsettled
  exact holds (unsettled_recorded.mp unsettled).1

end AfterUnsettled

def ClosingAlone (history : List Event) (attempt : AttemptId) : Phase → Prop
  | .finishing completion _ =>
      completion.definite = true →
        ∀ other ∈ grantees history, other ≠ attempt → ¬Unsettled history other
  | _ => True

instance (history : List Event) (attempt : AttemptId) :
    (phase : Phase) → Decidable (ClosingAlone history attempt phase)
  | .finishing _ _ => inferInstanceAs (Decidable (_ → _))
  | .ready | .lookingUp _ | .sending _ | .inFlight | .returned _ _ | .crashed => isTrue trivial

/-- An attempt is closed as pending or failed only when no other attempt of the
operation is unsettled. -/
def ClosesAlone (w : World) : Action → Prop
  | .finish attempt _ => ClosingAlone w.history attempt (w.phase attempt)
  | _ => True

instance (w : World) : (action : Action) → Decidable (ClosesAlone w action)
  | .finish attempt _ => inferInstanceAs (Decidable (ClosingAlone _ attempt _))
  | .tick _ | .begin _ _ _ | .lookup _ _ | .write _ | .neverWritten _ _ | .answer _ _
  | .abandon _ _ | .crash _ => isTrue trivial

structure OneDigest (plan : AttemptId → AttemptPlan) (row : Option OperationRow)
    (history : List Event) : Prop where
  idle : Idle row → ∀ attempt, ¬Unsettled history attempt
  digest : ∀ stored, row = some stored → ∀ attempt, Unsettled history attempt →
    digestOf plan attempt = stored.payloadSHA256

theorem OneDigest.start : OneDigest plan none [] := by
  constructor
  · intro _idle attempt unsettled
    cases unsettled.1
  · intro stored impossible
    cases impossible

theorem OneDigest.same_of_grant {row : Option OperationRow} {history : List Event}
    (one : OneDigest plan row history) {attempt other : AttemptId} {now : Time}
    (unflagged : (plan attempt).intent.Unflagged)
    (granted : (beginKind row ((plan attempt).beginInput attempt) now).grants = true)
    (unsettled : Unsettled history other) : digestOf plan other = digestOf plan attempt := by
  cases rowGrant_of_granted unflagged granted with
  | idle idle kind => exact False.elim (one.idle idle other unsettled)
  | dedup stored found unknown same mode inTime kind =>
      exact (one.digest stored found other unsettled).trans same
  | lookup stored found unknown same mode kind =>
      exact (one.digest stored found other unsettled).trans same

private theorem oneDigest_begun {row : Option OperationRow} {history : List Event}
    (one : OneDigest plan row history) {now : Time}
    (unflagged : (plan attempt).intent.Unflagged) :
    OneDigest plan (some (beginRow row ((plan attempt).beginInput attempt) now).2)
      (.begun attempt now (beginKind row ((plan attempt).beginInput attempt) now) :: history) := by
  cases granted : (beginKind row ((plan attempt).beginInput attempt) now).grants with
  | true =>
      rw [beginRow_granted granted]
      constructor
      · intro idle
        have settled := idle _ rfl
        cases settled
      · intro stored found other unsettled
        cases found
        rcases unsettled_granted unsettled with same | older
        · rw [same]
          rfl
        · exact one.same_of_grant unflagged granted older
  | false =>
      have kept : ∀ other, Unsettled
          (.begun attempt now (beginKind row ((plan attempt).beginInput attempt) now) :: history)
            other → Unsettled history other :=
        fun other => (unsettled_refused granted).mp
      have locked : OneDigest plan (some (lockedRow row ((plan attempt).beginInput attempt)))
          (.begun attempt now (beginKind row ((plan attempt).beginInput attempt) now) ::
            history) := by
        cases row with
        | some stored =>
            exact ⟨fun idle other unsettled => one.idle idle other (kept other unsettled),
              fun found same other unsettled => one.digest found same other (kept other unsettled)⟩
        | none =>
            have nobody : ∀ other, ¬Unsettled history other :=
              one.idle (fun stored impossible => by cases impossible)
            exact ⟨fun _ other unsettled => nobody other (kept other unsettled),
              fun _ _ other unsettled => absurd (kept other unsettled) (nobody other)⟩
      rcases beginRow_not_granted granted with same | ⟨_, stopped⟩
      · rw [same]
        exact locked
      · rw [stopped]
        constructor
        · intro idle
          have settled := idle _ rfl
          cases settled
        · intro stored found other unsettled
          cases found
          exact locked.digest _ rfl other unsettled

private theorem oneDigest_recorded {row : OperationRow} {history : List Event}
    (one : OneDigest plan (some row) history) {f : FinishInput}
    (alone : f.state.definite = true → ∀ other, other ≠ attempt → ¬Unsettled history other) :
    OneDigest plan (some (row.finished f)) (.recorded attempt f :: history) := by
  constructor
  · intro idle other unsettled
    obtain ⟨older, indefinite⟩ := unsettled_recorded.mp unsettled
    have definite : f.state.definite = true := idle _ rfl
    by_cases same : attempt = other
    · rw [indefinite same] at definite
      cases definite
    · exact alone definite other (fun equal => same equal.symm) older
  · intro stored found other unsettled
    cases found
    exact one.digest row rfl other (unsettled_recorded.mp unsettled).1

theorem ClosesAlone.alone {tx : TxOutcome} {completion : Completion}
    {tries : Nat} (guarded : ClosesAlone w (.finish attempt tx))
    (found : w.phase attempt = .finishing completion tries)
    (definite : (completion.finishInput (plan attempt).intent.mode).state.definite = true) :
    ∀ other, other ≠ attempt → ¬Unsettled w.history other := by
  simp only [ClosesAlone, found] at guarded
  rw [Completion.finishInput_definite] at definite
  intro other different unsettled
  exact guarded definite other unsettled.1 different unsettled

structure DigestSound (plan : AttemptId → AttemptPlan) (w : World) : Prop where
  traced : Traced plan w
  one : OneDigest plan w.row w.history
  ordered : AfterUnsettled
    (fun later earlier => digestOf plan earlier.1 = digestOf plan later.1) w.history

theorem DigestSound.start (clock : Time) : DigestSound plan (.start none clock) :=
  ⟨Traced.start none clock, OneDigest.start, List.Pairwise.nil⟩

theorem digestSound_step (unflagged : ∀ attempt, (plan attempt).intent.Unflagged)
    (guarded : ClosesAlone w action) (sound : DigestSound plan w)
    (taken : Transition plan w action next) : DigestSound plan next := by
  refine ⟨traced_step sound.traced taken, ?_, ?_⟩
  · apply ledger_step (OneDigest plan) taken sound.one
    · intro event silent
      constructor
      · intro idle attempt
        rw [unsettled_silent silent]
        exact sound.one.idle idle attempt
      · intro stored found attempt
        rw [unsettled_silent silent]
        exact sound.one.digest stored found attempt
    · intro attempt now tx _action ready past
      exact oneDigest_begun sound.one (unflagged attempt)
    · intro attempt tx completion tries row same found stored holder
      subst same
      have one := sound.one
      rw [stored] at one
      exact oneDigest_recorded one (guarded.alone found)
  · apply ledger_step (fun _ history => AfterUnsettled _ history) taken sound.ordered
    · intro event silent
      exact afterUnsettled_silent silent sound.ordered
    · intro attempt now tx _action ready past
      cases granted : (beginKind w.row ((plan attempt).beginInput attempt) now).grants with
      | false => exact afterUnsettled_refused granted sound.ordered
      | true =>
          refine afterUnsettled_granted granted (traced_phase sound.traced ready).1
            sound.ordered ?_
          intro earlier _member unsettled
          exact sound.one.same_of_grant (unflagged attempt) granted unsettled
    · intro attempt tx completion tries row _action found stored holder
      exact afterUnsettled_recorded sound.ordered

theorem digestSound_run (unflagged : ∀ attempt, (plan attempt).intent.Unflagged)
    {clock : Time} {actions : List Action}
    (guarded : GuardedRuns.Obeys (World.step plan) ClosesAlone (.start none clock) actions)
    (ran : World.run plan (.start none clock) actions = some w) : DigestSound plan w :=
  holds_after_run
    (fun _ _ _ allowed sound taken => digestSound_step unflagged allowed sound taken)
    (DigestSound.start clock) guarded ran

/-! ### The law of changed payloads -/

/-- The attempt ended with an unknown outcome, succeeded, or let its lease run
out without an end in the ledger. -/
def MayHaveApplied (w : World) (attempt : AttemptId) : Prop :=
  (∃ f ∈ recordsOf attempt w.history,
      f.state = .unknown ∨ f.state = .unresolved ∨ f.state = .succeeded) ∨
    recordsOf attempt w.history = [] ∧
      ∃ entry ∈ grants w.history, entry.1 = attempt ∧ entry.2 + operationLease ≤ w.clock

instance (w : World) (attempt : AttemptId) : Decidable (MayHaveApplied w attempt) :=
  inferInstanceAs (Decidable (_ ∨ _))

theorem Traced.unsettled_of_applied (traced : Traced plan w)
    (granted : attempt ∈ grantees w.history) (applied : MayHaveApplied w attempt) :
    Unsettled w.history attempt := by
  refine ⟨granted, ?_⟩
  intro f member
  rcases applied with ⟨g, recorded, open_⟩ | ⟨empty, _⟩
  · rw [(traced.records attempt).agree f member g recorded]
    rcases open_ with state | state | state <;> rw [state] <;> rfl
  · rw [empty] at member
    cases member

/-- No attempt was granted with a digest other than that of a possibly applied
attempt before it, and none will be: it is refused, or told to wait while the
lease of another attempt is live. -/
structure ChangedPayloadRefused (plan : AttemptId → AttemptPlan) (w : World) : Prop where
  sent : (grants w.history).Pairwise (fun later earlier =>
    MayHaveApplied w earlier.1 → digestOf plan earlier.1 = digestOf plan later.1)
  refused : ∀ attempt now, ∀ entry ∈ grants w.history, MayHaveApplied w entry.1 →
    digestOf plan attempt ≠ digestOf plan entry.1 →
    beginKind w.row ((plan attempt).beginInput attempt) now = .unresolved ∨
      beginKind w.row ((plan attempt).beginInput attempt) now = .busy ∧
        ∃ row, w.row = some row ∧ row.state = .sending ∧
          (row.snapshot now).leaseExpired = false

theorem OneDigest.stored_of_unsettled {row : Option OperationRow} {history : List Event}
    (one : OneDigest plan row history) (unsettled : Unsettled history attempt) :
    ∃ stored, row = some stored ∧ stored.state.definite = false := by
  cases row with
  | none =>
      exact False.elim (one.idle (fun stored impossible => by cases impossible) attempt unsettled)
  | some stored =>
      refine ⟨stored, rfl, ?_⟩
      cases settled : stored.state.definite with
      | false => rfl
      | true =>
          have idle : Idle (some stored) := by
            intro other found
            cases found
            exact settled
          exact False.elim (one.idle idle attempt unsettled)

private theorem refused_of_changed {row : OperationRow} {input : BeginInput} {now : Time}
    (unflagged : input.intent.Unflagged) (indefinite : row.state.definite = false)
    (changed : row.payloadSHA256 ≠ input.intent.payloadSHA256) :
    beginKind (some row) input now = .unresolved ∨
      beginKind (some row) input now = .busy ∧ row.state = .sending ∧
        (row.snapshot now).leaseExpired = false := by
  have refused : (beginKind (some row) input now).grants = false :=
    refused_of_indefinite unflagged indefinite (fun same => absurd same changed)
  rcases kind_of_refusal refused with stopped | ⟨_, same, _⟩ | ⟨sending, live, busy⟩
  · exact Or.inl stopped
  · exact absurd same changed
  · exact Or.inr ⟨busy, sending, live⟩

theorem changed_payload_refused_when_closed_alone
    (unflagged : ∀ attempt, (plan attempt).intent.Unflagged)
    (clock : Time) (actions : List Action) (w : World)
    (guarded : GuardedRuns.Obeys (World.step plan) ClosesAlone (.start none clock) actions)
    (ran : World.run plan (.start none clock) actions = some w) :
    ChangedPayloadRefused plan w := by
  have sound := digestSound_run unflagged guarded ran
  constructor
  · apply List.Pairwise.imp_of_mem _ sound.ordered
    intro later earlier _laterMember member same applied
    exact same (sound.traced.unsettled_of_applied (mem_grantees_of_grants member) applied)
  · intro attempt now entry member applied changed
    have unsettled :=
      sound.traced.unsettled_of_applied (mem_grantees_of_grants member) applied
    obtain ⟨row, stored, indefinite⟩ := sound.one.stored_of_unsettled unsettled
    have digests : row.payloadSHA256 ≠ digestOf plan attempt := by
      intro same
      exact changed (same.symm.trans (sound.one.digest row stored entry.1 unsettled).symm)
    have verdict := @refused_of_changed row ((plan attempt).beginInput attempt) now
      (unflagged attempt) indefinite digests
    rw [stored]
    rcases verdict with stopped | held
    · exact Or.inl stopped
    · exact Or.inr ⟨held.1, row, rfl, held.2⟩

def idempotentPlan (digest key : String) : AttemptPlan :=
  { op := { jobID := 7, rowIndex := 3, stepIndex := 0, stepName := "main" }
    operationKey := key
    intent :=
      { payloadSHA256 := digest, mode := .idempotent, retentionHours := 24
        resend := false, confirmNotApplied := false } }

/-- The job sends payload `p1`; a later retry of the row sends `p2`. -/
def editedPlan (attempt : AttemptId) : AttemptPlan :=
  if attempt = "retry:1:1" then idempotentPlan "p2" "k2" else idempotentPlan "p1" "k1"

theorem editedPlan_unflagged (attempt : AttemptId) : (editedPlan attempt).intent.Unflagged := by
  unfold editedPlan
  split <;> exact ⟨rfl, rfl⟩

def exchange (attempt : AttemptId) (now : Time) (status : Nat) : List Action :=
  [.begin attempt now .acknowledged, .write attempt,
    .answer attempt (.response status "null" "(empty body)"), .finish attempt .acknowledged]

/-- Unknown, then re-sent and done, then refused for the edited payload. -/
def resendThenEdit : List Action :=
  exchange "run:1:1" 0 503 ++ exchange "run:1:2" 0 201 ++
    [.begin "retry:1:1" 0 .acknowledged]

theorem changed_payload_refused_after_success :
    ∃ w, World.run editedPlan (.start none 0) resendThenEdit = some w ∧
      ChangedPayloadRefused editedPlan w := by
  refine ⟨_, rfl, ?_⟩
  exact changed_payload_refused_when_closed_alone editedPlan_unflagged 0 resendThenEdit _
    (by decide) rfl

/-- Unknown, then re-sent and rate limited, then sent with the edited payload. -/
def rateLimitThenEdit : List Action :=
  exchange "run:1:1" 0 503 ++ exchange "run:1:2" 0 429 ++
    [.begin "retry:1:1" 0 .acknowledged, .write "retry:1:1"]

theorem resend_forgets_unknown :
    ∃ w, World.run editedPlan (.start none 0) rateLimitThenEdit = some w ∧
      "retry:1:1" ∈ writers w.history ∧ ¬ChangedPayloadRefused editedPlan w := by
  refine ⟨_, rfl, by decide, ?_⟩
  intro law
  exact absurd law.sent (by decide)

end MigrationPlatform.Delivery
