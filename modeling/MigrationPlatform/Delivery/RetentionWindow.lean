/-
Delivery mode `idempotent` and the retention window of the destination.

A send is dated by the begin that grants it, as the ledger dates the first one
in `first_sent_at`. The window is checked only on a row whose effective state is
unknown. A definite refusal of a re-send leaves such a row pending, and a begin
days later is granted without the check: `resend_after_retention` is that run.
Where no attempt is closed that way past an unsettled one, every send after a
possibly applied request stays in the window and carries its idempotency key.
-/

import MigrationPlatform.Delivery.ChangedPayload
import MigrationPlatform.Delivery.StepRequest

namespace MigrationPlatform.Delivery

variable {plan : AttemptId → AttemptPlan} {w next : World} {action : Action}

def firstSend (history : List Event) : Option Time :=
  (grants history).getLast?.map Prod.snd

theorem firstSend_granted {attempt : AttemptId} {now : Time} {kind : DecisionKind}
    {history : List Event} (granted : kind.grants = true) :
    firstSend (.begun attempt now kind :: history) = some ((firstSend history).getD now) := by
  unfold firstSend
  rw [grants, if_pos granted, List.getLast?_cons]
  cases (grants history).getLast? <;> rfl

theorem firstSend_refused {attempt : AttemptId} {now : Time} {kind : DecisionKind}
    {history : List Event} (refused : kind.grants = false) :
    firstSend (.begun attempt now kind :: history) = firstSend history := by
  unfold firstSend
  rw [grants, if_neg (by simp [refused])]

theorem firstSend_silent {event : Event} (silent : event.Silent) (history : List Event) :
    firstSend (event :: history) = firstSend history := by
  cases event with
  | begun attempt now kind => exact False.elim silent
  | recorded attempt input => exact False.elim silent
  | _ => rfl

def FirstSentSound (row : Option OperationRow) (history : List Event) : Prop :=
  row.bind OperationRow.firstSentAt = firstSend history

theorem firstSentSound_step (sound : FirstSentSound w.row w.history)
    (taken : Transition plan w action next) : FirstSentSound next.row next.history := by
  apply ledger_step FirstSentSound taken sound
  · intro event silent
    unfold FirstSentSound
    rw [firstSend_silent silent]
    exact sound
  · intro attempt now tx _action ready past
    have locked : (lockedRow w.row ((plan attempt).beginInput attempt)).firstSentAt =
        firstSend w.history := by
      rw [← sound]
      cases w.row <;> rfl
    change (beginRow w.row ((plan attempt).beginInput attempt) now).2.firstSentAt = _
    cases granted : (beginKind w.row ((plan attempt).beginInput attempt) now).grants with
    | true =>
        rw [beginRow_granted granted, firstSend_granted granted]
        change (lockedRow _ _).firstSentAt.or (some now) = _
        rw [locked]
        cases firstSend w.history <;> rfl
    | false =>
        rw [firstSend_refused granted, ← locked]
        rcases beginRow_not_granted granted with kept | ⟨_, stopped⟩
        · rw [kept]
        · rw [stopped]
          rfl
  · intro attempt tx completion tries row _action found stored holder
    have before := sound
    rw [stored] at before
    exact before

def InWindow (first : Time) (retentionHours : Nat) (later _earlier : AttemptId × Time) : Prop :=
  later.2 ≤ first + retentionHours * hour

structure WindowSound (plan : AttemptId → AttemptPlan) (retentionHours : Nat) (w : World) :
    Prop where
  digests : DigestSound plan w
  first : FirstSentSound w.row w.history
  inWindow : ∀ first, firstSend w.history = some first →
    AfterUnsettled (InWindow first retentionHours) w.history

private theorem inWindow_of_grant {retentionHours : Nat} (sound : WindowSound plan retentionHours w)
    {attempt other : AttemptId} {now first : Time}
    (idempotent : (plan attempt).intent.mode = .idempotent)
    (retention : (plan attempt).intent.retentionHours = retentionHours)
    (unflagged : (plan attempt).intent.Unflagged)
    (granted : (beginKind w.row ((plan attempt).beginInput attempt) now).grants = true)
    (unsettled : Unsettled w.history other) (dated : firstSend w.history = some first) :
    now ≤ first + retentionHours * hour := by
  cases rowGrant_of_granted unflagged granted with
  | idle idle kind => exact False.elim (sound.digests.one.idle idle other unsettled)
  | lookup stored found unknown same mode kind =>
      change (plan attempt).intent.mode = .lookup at mode
      rw [idempotent] at mode
      cases mode
  | dedup stored found unknown same mode inTime kind =>
      have sentAt : stored.firstSentAt = some first := by
        have known := sound.first
        rw [found] at known
        exact known.trans dated
      change (stored.snapshot now).retentionOver (plan attempt).intent.retentionHours = false
        at inTime
      rw [retention] at inTime
      have within : ¬retentionHours * hour < now - first := by
        intro late
        have past := (@OpSnapshot.retentionOver_iff (stored.snapshot now) first retentionHours
          sentAt).mpr late
        rw [inTime] at past
        cases past
      exact Nat.sub_le_iff_le_add'.mp (Nat.not_lt.mp within)

theorem windowSound_step {retentionHours : Nat}
    (idempotent : ∀ attempt, (plan attempt).intent.mode = .idempotent)
    (retention : ∀ attempt, (plan attempt).intent.retentionHours = retentionHours)
    (unflagged : ∀ attempt, (plan attempt).intent.Unflagged)
    (guarded : ClosesAlone w action) (sound : WindowSound plan retentionHours w)
    (taken : Transition plan w action next) : WindowSound plan retentionHours next := by
  refine ⟨digestSound_step unflagged guarded sound.digests taken,
    firstSentSound_step sound.first taken, ?_⟩
  apply ledger_step (fun _ history => ∀ first, firstSend history = some first →
    AfterUnsettled (InWindow first retentionHours) history) taken sound.inWindow
  · intro event silent first dated
    rw [firstSend_silent silent] at dated
    exact afterUnsettled_silent silent (sound.inWindow first dated)
  · intro attempt now tx _action ready past first dated
    cases granted : (beginKind w.row ((plan attempt).beginInput attempt) now).grants with
    | false =>
        rw [firstSend_refused granted] at dated
        exact afterUnsettled_refused granted (sound.inWindow first dated)
    | true =>
        rw [firstSend_granted granted] at dated
        have fresh := (traced_phase sound.digests.traced ready).1
        cases earliest : firstSend w.history with
        | none =>
            -- the very first grant has nothing before it
            have empty : grants w.history = [] := by
              cases found : (grants w.history).getLast? with
              | none => exact List.getLast?_eq_none_iff.mp found
              | some entry =>
                  unfold firstSend at earliest
                  rw [found] at earliest
                  cases earliest
            refine afterUnsettled_granted granted fresh ?_ ?_
            · unfold AfterUnsettled
              rw [empty]
              exact List.Pairwise.nil
            · intro earlier member
              rw [empty] at member
              cases member
        | some start =>
            rw [earliest] at dated
            have sameFirst : start = first := Option.some.inj dated
            subst sameFirst
            refine afterUnsettled_granted granted fresh (sound.inWindow start earliest) ?_
            intro earlier _member unsettled
            exact inWindow_of_grant sound (idempotent attempt) (retention attempt)
              (unflagged attempt) granted unsettled earliest
  · intro attempt tx completion tries row _action found stored holder first dated
    exact afterUnsettled_recorded (sound.inWindow first dated)

theorem WindowSound.start (retentionHours : Nat) (clock : Time) :
    WindowSound plan retentionHours (.start none clock) :=
  ⟨DigestSound.start clock, rfl, fun _ _ => List.Pairwise.nil⟩

abbrev keyOf (plan : AttemptId → AttemptPlan) (attempt : AttemptId) : String :=
  (plan attempt).operationKey

structure WithinRetention (plan : AttemptId → AttemptPlan) (retentionHours : Nat) (w : World) :
    Prop where
  sameKey : (grants w.history).Pairwise (fun later earlier =>
    MayHaveApplied w earlier.1 → keyOf plan later.1 = keyOf plan earlier.1)
  inTime : ∀ first, firstSend w.history = some first →
    (grants w.history).Pairwise (fun later earlier =>
      MayHaveApplied w earlier.1 → later.2 ≤ first + retentionHours * hour)
  /-- Past the window nothing is sent: a recorded success is replayed, a live
  holder is waited for, and everything else is unresolved. -/
  afterwards : ∀ first, firstSend w.history = some first →
    ∀ entry ∈ grants w.history, MayHaveApplied w entry.1 →
    ∀ attempt now, first + retentionHours * hour < now →
      beginKind w.row ((plan attempt).beginInput attempt) now = .unresolved ∨
      (∃ row, w.row = some row ∧
        (row.state = .succeeded ∧
            beginKind w.row ((plan attempt).beginInput attempt) now = .replay ∨
          row.state = .sending ∧ (row.snapshot now).leaseExpired = false ∧
            beginKind w.row ((plan attempt).beginInput attempt) now = .busy))

private theorem verdict_past_window {row : OperationRow} {input : BeginInput} {now first : Time}
    (unflagged : input.intent.Unflagged) (idempotent : input.intent.mode = .idempotent)
    (indefinite : row.state.definite = false) (dated : row.firstSentAt = some first)
    (late : first + input.intent.retentionHours * hour < now) :
    (beginKind (some row) input now).grants = false := by
  have past : (row.snapshot now).retentionOver input.intent.retentionHours = true := by
    apply (OpSnapshot.retentionOver_iff _ dated).mpr
    exact Nat.lt_sub_iff_add_lt'.mpr late
  apply refused_of_indefinite unflagged indefinite
  rintro _same (⟨_, inTime⟩ | mode)
  · rw [past] at inTime
    cases inTime
  · rw [idempotent] at mode
    cases mode

theorem idempotent_resend_within_retention_when_closed_alone
    (call : StepCall) (sha256Hex : String → String) (rendered : AttemptId → String)
    (idempotent : call.mode = .idempotent)
    (collisionFree : ∀ left right, sha256Hex (rendered left) = sha256Hex (rendered right) →
      rendered left = rendered right)
    (planned : ∀ attempt, plan attempt = call.plan sha256Hex (rendered attempt))
    (clock : Time) (actions : List Action) (w : World)
    (guarded : GuardedRuns.Obeys (World.step plan) ClosesAlone (.start none clock) actions)
    (ran : World.run plan (.start none clock) actions = some w) :
    WithinRetention plan (call.input sha256Hex "" false false).retention w := by
  have mode : ∀ attempt, (plan attempt).intent.mode = .idempotent := by
    intro attempt
    rw [planned attempt]
    exact idempotent
  have retention : ∀ attempt, (plan attempt).intent.retentionHours =
      (call.input sha256Hex "" false false).retention := by
    intro attempt
    rw [planned attempt]
    rfl
  have unflagged : ∀ attempt, (plan attempt).intent.Unflagged := by
    intro attempt
    rw [planned attempt]
    exact ⟨rfl, rfl⟩
  have sound : WindowSound plan (call.input sha256Hex "" false false).retention w :=
    holds_after_run
      (fun _ _ _ allowed holds taken =>
        windowSound_step mode retention unflagged allowed holds taken)
      (WindowSound.start _ clock) guarded ran
  have open_ : ∀ entry ∈ grants w.history, MayHaveApplied w entry.1 →
      Unsettled w.history entry.1 := by
    intro entry member applied
    exact sound.digests.traced.unsettled_of_applied (mem_grantees_of_grants member) applied
  constructor
  · apply List.Pairwise.imp_of_mem _ sound.digests.ordered
    intro later earlier _laterMember member same applied
    have digests : digestOf plan earlier.1 = digestOf plan later.1 :=
      same (open_ earlier member applied)
    unfold digestOf at digests
    unfold keyOf
    rw [planned later.1, planned earlier.1] at digests ⊢
    exact call.key_of_digest (collisionFree later.1 earlier.1) digests.symm
  · intro first dated
    apply List.Pairwise.imp_of_mem _ (sound.inWindow first dated)
    intro later earlier _laterMember member within applied
    exact within (open_ earlier member applied)
  · intro first dated entry member applied attempt now late
    obtain ⟨row, stored, indefinite⟩ :=
      sound.digests.one.stored_of_unsettled (open_ entry member applied)
    have sentAt : row.firstSentAt = some first := by
      have known := sound.first
      rw [stored] at known
      exact known.trans dated
    rw [stored]
    have refused := @verdict_past_window row ((plan attempt).beginInput attempt) now first
      (unflagged attempt) (mode attempt) indefinite sentAt
      (by rw [← retention attempt] at late; exact late)
    rcases kind_of_refusal refused with stopped | ⟨succeeded, _, replay⟩ | ⟨sending, live, busy⟩
    · exact Or.inl stopped
    · exact Or.inr ⟨row, rfl, Or.inl ⟨succeeded, replay⟩⟩
    · exact Or.inr ⟨row, rfl, Or.inr ⟨sending, live, busy⟩⟩

/-! ### Runs -/

/-- An update by `PUT`, idempotent by its method, with the default retention. -/
def putCall : StepCall :=
  { op := { jobID := 7, rowIndex := 3, stepIndex := 0, stepName := "main" }
    method := "PUT", hasBody := true, mode := .idempotent }

def putPayload : String := "\x7b\"n\":1\x7d"

def putSha256 (text : String) : String :=
  if text = putPayload then "2bfd14f43d17fc7cea24e0917a8879b4b2f880b8baeec1b9d90fbaad655e71bd"
  else if text = "7-3-main-" ++ putPayload then "892ea2eac27c2a44931b7c11840cf0b4d3b25a61f77ce24e39fc30bc5185e466"
  else ""

def putPlan (_attempt : AttemptId) : AttemptPlan := putCall.plan putSha256 putPayload

def resendInTime : List Action :=
  exchange "run:1:1" 0 503 ++ [.tick (24 * hour)] ++ exchange "run:1:2" (24 * hour) 200

theorem resend_within_retention :
    ∃ w, World.run putPlan (.start none 0) resendInTime = some w ∧
      WithinRetention putPlan 24 w := by
  refine ⟨_, rfl, ?_⟩
  exact idempotent_resend_within_retention_when_closed_alone putCall putSha256
    (fun _ => putPayload) rfl (fun _ _ _ => rfl) (fun _ => rfl) 0 resendInTime _
    (by decide) rfl

/-- Unknown, then rate limited, then sent again a day after the window closed. -/
def resendTooLate : List Action :=
  exchange "run:1:1" 0 503 ++ exchange "run:1:2" 0 429 ++
    [.tick (48 * hour), .begin "retry:1:1" (48 * hour) .acknowledged, .write "retry:1:1"]

theorem resend_after_retention :
    ∃ w, World.run putPlan (.start none 0) resendTooLate = some w ∧
      .wrote "retry:1:1" (48 * hour) ∈ w.history ∧ ¬WithinRetention putPlan 24 w := by
  refine ⟨_, rfl, by decide, ?_⟩
  intro law
  exact absurd (law.inTime 0 rfl) (by decide)

end MigrationPlatform.Delivery
