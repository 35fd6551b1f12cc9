/-
What follows from the answer of a lookup, and the law of delivery mode `lookup`.

A lookup that found the effect closes its attempt with success, and one that
failed closes it with an unknown outcome; neither attempt writes a request.
After a failed lookup the row asks for another one, until some later begin is
answered by more than a wait.
-/

import MigrationPlatform.Delivery.LookupDelivery

namespace MigrationPlatform.Delivery

variable {plan : AttemptId → AttemptPlan} {w next : World} {action : Action}

def lookupsOf (attempt : AttemptId) : List Event → List LookupEffect
  | [] => []
  | .lookedUp other effect :: rest =>
      if other = attempt then effect :: lookupsOf attempt rest else lookupsOf attempt rest
  | _ :: rest => lookupsOf attempt rest

variable {attempt : AttemptId}

private theorem lookupsOf_other {event : Event} (history : List Event)
    (other : event.attempt ≠ attempt) :
    lookupsOf attempt (event :: history) = lookupsOf attempt history := by
  cases event with
  | lookedUp author effect => exact if_neg other
  | _ => rfl

/-- How `CallEndpoint` closes the attempt on the answer; an absent effect does not. -/
def LookupEffect.completion : LookupEffect → Option Completion
  | .failed message => some (.lookupFailed message)
  | .found status body => some (.lookupFound status body)
  | .absent => none

private theorem afterLookup_completion {effect : LookupEffect} {completion : Completion}
    (closes : effect.completion = some completion) (deadline : Time) :
    afterLookup deadline effect = .finishing completion 0 := by
  cases effect with
  | failed message => cases closes; rfl
  | found status body => cases closes; rfl
  | absent => cases closes

structure ClosedBy (mode : DeliveryMode) (completion : Completion) (history : List Event)
    (attempt : AttemptId) (phase : Phase) : Prop where
  unwritten : attempt ∉ writers history
  records : ∀ f ∈ recordsOf attempt history, f = completion.finishInput mode
  phase : phase = .crashed ∨ MissedPhase completion phase ∨
    phase = returnedFrom mode completion none ∧ recordsOf attempt history ≠ []

theorem ClosedBy.other {mode : DeliveryMode} {completion : Completion} {history : List Event}
    {phase : Phase} {event : Event} (foreign : event.attempt ≠ attempt)
    (closed : ClosedBy mode completion history attempt phase) :
    ClosedBy mode completion (event :: history) attempt phase := by
  constructor
  · rw [mem_writers_other history foreign]
    exact closed.unwritten
  · rw [recordsOf_other history foreign]
    exact closed.records
  · rw [recordsOf_other history foreign]
    exact closed.phase

private theorem ClosedBy.completion_of_finishing {mode : DeliveryMode}
    {completion other : Completion}
    {history : List Event} {tries : Nat}
    (closed : ClosedBy mode completion history attempt (.finishing other tries)) :
    other = completion := by
  rcases closed.phase with impossible | (⟨later, same⟩ | ⟨_, _, impossible⟩) | ⟨impossible, _⟩
  · cases impossible
  · injection same
  · cases impossible
  · cases impossible

def LookupsClose (plan : AttemptId → AttemptPlan) (w : World) : Prop :=
  ∀ attempt, ∀ effect ∈ lookupsOf attempt w.history, ∀ completion,
    effect.completion = some completion →
    ClosedBy (plan attempt).intent.mode completion w.history attempt (w.phase attempt)

def Phase.Open : Phase → Prop
  | .ready => True
  | .lookingUp _ => True
  | .sending _ => True
  | .inFlight => True
  | _ => False

private theorem ClosedBy.not_open {mode : DeliveryMode} {completion : Completion}
    {history : List Event}
    {phase : Phase} (closed : ClosedBy mode completion history attempt phase) : ¬phase.Open := by
  rcases closed.phase with rfl | (⟨later, rfl⟩ | ⟨_, _, rfl⟩) | ⟨rfl, _⟩ <;> exact False.elim

private theorem LookupsClose.act (close : LookupsClose plan w)
    {phase : Phase} {event : Event} {row : Option OperationRow} (author : event.attempt = attempt)
    (own : ∀ effect ∈ lookupsOf attempt (event :: w.history), ∀ completion,
      effect.completion = some completion →
      ClosedBy (plan attempt).intent.mode completion (event :: w.history) attempt phase) :
    LookupsClose plan (({ w with row := row }.note event).enter attempt phase) := by
  intro other effect member completion closes
  by_cases same : other = attempt
  · subst other
    simpa [World.enter, World.note] using own effect member completion closes
  · have foreign : event.attempt ≠ other := fun equal => same (equal.symm.trans author)
    change effect ∈ lookupsOf other (event :: w.history) at member
    rw [lookupsOf_other w.history foreign] at member
    simpa [World.enter, World.note, Function.update_of_ne same] using
      (close other effect member completion closes).other foreign

private theorem LookupsClose.move (close : LookupsClose plan w) {phase : Phase}
    (own : ∀ effect ∈ lookupsOf attempt w.history, ∀ completion,
      effect.completion = some completion →
      ClosedBy (plan attempt).intent.mode completion w.history attempt phase) :
    LookupsClose plan (w.enter attempt phase) := by
  intro other effect member completion closes
  by_cases same : other = attempt
  · subst other
    simpa [World.enter] using own effect member completion closes
  · simpa [World.enter, Function.update_of_ne same] using
      close other effect member completion closes

private theorem LookupsClose.none_closes (close : LookupsClose plan w)
    {phase : Phase} (found : w.phase attempt = phase) (isOpen : phase.Open)
    {effect : LookupEffect} (member : effect ∈ lookupsOf attempt w.history)
    {completion : Completion} (closes : effect.completion = some completion) : False := by
  have closed := close attempt effect member completion closes
  rw [found] at closed
  exact closed.not_open isOpen

private theorem LookupsClose.closing (close : LookupsClose plan w)
    {branch : Completion} {tries : Nat} (found : w.phase attempt = .finishing branch tries)
    {effect : LookupEffect} (member : effect ∈ lookupsOf attempt w.history)
    {completion : Completion} (closes : effect.completion = some completion) :
    branch = completion ∧ attempt ∉ writers w.history ∧
      ∀ f ∈ recordsOf attempt w.history,
        f = completion.finishInput (plan attempt).intent.mode := by
  have closed := close attempt effect member completion closes
  rw [found] at closed
  exact ⟨closed.completion_of_finishing, closed.unwritten, closed.records⟩

private theorem lookupsClose_missed (close : LookupsClose plan w)
    {branch : Completion} {tries : Nat} {phase : Phase}
    (found : w.phase attempt = .finishing branch tries) (missed : MissedPhase branch phase) :
    LookupsClose plan (w.enter attempt phase) := by
  apply close.move
  intro effect member completion closes
  obtain ⟨same, unwritten, records⟩ := close.closing found member closes
  subst branch
  exact ⟨unwritten, records, Or.inr (Or.inl missed)⟩

theorem lookupsClose_step (traced : Traced plan w) (close : LookupsClose plan w)
    (taken : Transition plan w action next) : LookupsClose plan next := by
  cases taken with
  | tick elapsed => exact close
  | beginAborted attempt now message ready =>
      apply close.move
      intro effect member completion closes
      exact False.elim (close.none_closes ready trivial member closes)
  | begun attempt now tx phase ready past entered =>
      refine close.act rfl ?_
      intro effect member completion closes
      exact False.elim (close.none_closes ready trivial member closes)
  | lookedUp attempt reply deadline found =>
      refine close.act rfl ?_
      intro effect member completion closes
      obtain ⟨_, unwritten, unrecorded⟩ := traced_phase traced found
      rw [lookupsOf, if_pos rfl] at member
      rcases List.mem_cons.mp member with same | older
      · rw [← same, afterLookup_completion closes]
        refine ⟨unwritten, ?_, Or.inr (Or.inl (Or.inl ⟨0, rfl⟩))⟩
        intro f recorded
        change f ∈ recordsOf attempt w.history at recorded
        rw [unrecorded] at recorded
        cases recorded
      · exact False.elim (close.none_closes found trivial older closes)
  | wrote attempt deadline found =>
      refine close.act rfl ?_
      intro effect member completion closes
      exact False.elim (close.none_closes found trivial member closes)
  | neverWritten attempt message deadline found =>
      apply close.move
      intro effect member completion closes
      exact False.elim (close.none_closes found trivial member closes)
  | answered attempt answer found =>
      refine close.act rfl ?_
      intro effect member completion closes
      exact False.elim (close.none_closes found trivial member closes)
  | recorded attempt tx branch tries row phase found stored holder closing =>
      refine close.act rfl ?_
      intro effect member completion closes
      obtain ⟨same, unwritten, records⟩ := close.closing found member closes
      subst branch
      refine ⟨unwritten, ?_, ?_⟩
      · intro f recorded
        rw [recordsOf, if_pos rfl] at recorded
        rcases List.mem_cons.mp recorded with new | older
        · exact new
        · exact records f older
      · rcases closing with returned | missed
        · exact Or.inr (Or.inr ⟨returned, by simp [recordsOf]⟩)
        · exact Or.inr (Or.inl missed)
  | finishMissed attempt tx completion tries phase found missed =>
      exact lookupsClose_missed close found missed
  | abandoned attempt message completion tries phase found missed =>
      exact lookupsClose_missed close found missed
  | crashed attempt =>
      apply close.move
      intro effect member completion closes
      have closed := close attempt effect member completion closes
      exact ⟨closed.unwritten, closed.records, Or.inl rfl⟩

/-- The newest grantee, as long as every begin since was told to wait. -/
def claimant : List Event → Option AttemptId
  | [] => none
  | .begun attempt _ kind :: rest =>
      if kind = .busy then claimant rest
      else if kind.grants = true then some attempt
      else none
  | _ :: rest => claimant rest

/-- The row is still being sent by its claimant, or is as its claimant closed it. -/
def ClaimantSound (plan : AttemptId → AttemptPlan) (row : Option OperationRow)
    (history : List Event) : Prop :=
  ∀ attempt, claimant history = some attempt → ∃ stored, row = some stored ∧
    stored.payloadSHA256 = (plan attempt).intent.payloadSHA256 ∧
    (stored.state = .sending ∧ stored.leaseAttempt = some attempt ∧
        recordsOf attempt history = [] ∨
      ∃ before : OperationRow, ∃ f ∈ recordsOf attempt history, stored = before.finished f)

private theorem claimantSound_begun {row : Option OperationRow} {history : List Event}
    (sound : ClaimantSound plan row history) (now : Time)
    (unrecorded : recordsOf attempt history = []) :
    ClaimantSound plan (some (beginRow row ((plan attempt).beginInput attempt) now).2)
      (.begun attempt now (beginKind row ((plan attempt).beginInput attempt) now) ::
        history) := by
  intro other current
  rw [claimant] at current
  split at current
  · rename_i busy
    have refused : (beginKind row ((plan attempt).beginInput attempt) now).grants = false := by
      rw [busy]
      rfl
    obtain ⟨stored, found, digest, state⟩ := sound other current
    rcases beginRow_not_granted refused with kept | ⟨stopped, _⟩
    · rw [kept, found]
      exact ⟨stored, rfl, digest, state⟩
    · rw [busy] at stopped
      cases stopped
  · split at current
    · rename_i granted
      cases current
      rw [beginRow_granted granted]
      exact ⟨_, rfl, rfl, Or.inl ⟨rfl, rfl, unrecorded⟩⟩
    · cases current

theorem claimantSound_step (traced : Traced plan w) (sound : ClaimantSound plan w.row w.history)
    (taken : Transition plan w action next) : ClaimantSound plan next.row next.history := by
  apply ledger_step (ClaimantSound plan) taken sound
  · intro event silent
    cases event with
    | begun attempt now kind => exact False.elim silent
    | recorded attempt input => exact False.elim silent
    | _ => exact sound
  · intro attempt now tx _action ready _past
    exact claimantSound_begun sound now (traced_phase traced ready).2.2
  · intro attempt tx completion tries row _action _found stored holder other current
    obtain ⟨before, same, digest, state⟩ := sound other current
    cases stored.symm.trans same
    refine ⟨_, rfl, digest, Or.inr ⟨row, ?_⟩⟩
    rcases state with ⟨_, held, _⟩ | ⟨older, f, _, rfl⟩
    · have author : attempt = other := Option.some.inj (holder.symm.trans held)
      subst author
      exact ⟨_, by simp [recordsOf], rfl⟩
    · cases holder

/-! ### The law of lookup delivery -/

private theorem lookup_or_wait {row : OperationRow} {input : BeginInput} {now : Time}
    (state : row.state = .sending ∨ row.state = .unknown)
    (same : row.payloadSHA256 = input.intent.payloadSHA256)
    (lookup : input.intent.mode = .lookup) (unflagged : input.intent.Unflagged) :
    beginKind (some row) input now = .lookupThenSend ∨
      beginKind (some row) input now = .busy ∧ row.state = .sending ∧
        (row.snapshot now).leaseExpired = false := by
  have looks : (row.snapshot now).effectiveState = .unknown →
      beginKind (some row) input now = .lookupThenSend := by
    intro unknown
    rw [beginKind_unknown unknown same, unflagged.2, lookup]
    rfl
  rcases state with sending | unknown
  · cases expired : (row.snapshot now).leaseExpired with
    | true =>
        apply Or.inl
        apply looks
        simp [OpSnapshot.effectiveState, sending, expired]
    | false =>
        exact Or.inr ⟨beginKind_busy sending expired input, sending, rfl⟩
  · apply Or.inl
    apply looks
    simp [OpSnapshot.effectiveState, unknown]

structure LooksUpFirst (plan : AttemptId → AttemptPlan) (w : World) : Prop where
  /-- Every request comes after the definite end of each earlier attempt, or
  after a lookup since that attempt which found no effect. -/
  beforeWrite : ∀ later before author time,
    w.history = later ++ .wrote author time :: before →
    ∀ attempt ∈ grantees before, attempt ≠ author →
      Settled attempt before ∨ LookedUpSince attempt before
  writesOnce : (writers w.history).Nodup
  found : ∀ attempt status body, .found status body ∈ lookupsOf attempt w.history →
    attempt ∉ writers w.history ∧
    (∀ f ∈ recordsOf attempt w.history,
      f.state = .succeeded ∧ f.httpStatus = status ∧ f.receipt = body) ∧
    (∀ output, w.phase attempt = .returned output none →
      output.succeeded = true ∧ recordsOf attempt w.history ≠ []) ∧
    (recordsOf attempt w.history ≠ [] → claimant w.history = some attempt →
      ∃ row, w.row = some row ∧ row.state = .succeeded ∧ row.receiptJson = nullIfJSON body)
  failed : ∀ attempt message, .failed message ∈ lookupsOf attempt w.history →
    attempt ∉ writers w.history ∧
    (∀ f ∈ recordsOf attempt w.history, f.state = .unknown) ∧
    -- for the same payload: another digest is a conflict, whatever the lookup said
    (claimant w.history = some attempt → ∀ retry now,
      digestOf plan retry = digestOf plan attempt →
      beginKind w.row ((plan retry).beginInput retry) now = .lookupThenSend ∨
        beginKind w.row ((plan retry).beginInput retry) now = .busy ∧
          ∃ row, w.row = some row ∧ row.leaseAttempt = some attempt ∧
            (row.snapshot now).leaseExpired = false)

structure LookupLaw (plan : AttemptId → AttemptPlan) (w : World) : Prop where
  sound : LookupSound plan w
  close : LookupsClose plan w
  current : ClaimantSound plan w.row w.history

theorem lookupLaw_run (lookup : ∀ attempt, (plan attempt).intent.mode = .lookup)
    (unflagged : ∀ attempt, (plan attempt).intent.Unflagged)
    {clock : Time} {actions : List Action}
    (inLease : GuardedRuns.Obeys (World.step plan) WritesInLease (.start none clock) actions)
    (ran : World.run plan (.start none clock) actions = some w) : LookupLaw plan w := by
  refine holds_after_run ?_ ?_ inLease ran
  · intro before action after allowed law taken
    exact ⟨lookupSound_step lookup unflagged allowed law.sound taken,
      lookupsClose_step law.sound.traced law.close taken, claimantSound_step law.sound.traced law.current taken⟩
  · refine ⟨LookupSound.start clock, ?_, ?_⟩
    · intro attempt effect member
      cases member
    · intro attempt impossible
      cases impossible

private theorem LookupLaw.after_found (law : LookupLaw plan w)
    {status : Nat} {body : String} (member : .found status body ∈ lookupsOf attempt w.history) :
    attempt ∉ writers w.history ∧
    (∀ f ∈ recordsOf attempt w.history,
      f.state = .succeeded ∧ f.httpStatus = status ∧ f.receipt = body) ∧
    (∀ output, w.phase attempt = .returned output none →
      output.succeeded = true ∧ recordsOf attempt w.history ≠ []) ∧
    (recordsOf attempt w.history ≠ [] → claimant w.history = some attempt →
      ∃ row, w.row = some row ∧ row.state = .succeeded ∧ row.receiptJson = nullIfJSON body) := by
  have closed := law.close attempt _ member (.lookupFound status body) rfl
  refine ⟨closed.unwritten, ?_, ?_, ?_⟩
  · intro f recorded
    rw [closed.records f recorded]
    exact ⟨rfl, rfl, rfl⟩
  · intro output returned
    rcases closed.phase with crashed | (⟨tries, finishing⟩ | ⟨out, err, failed⟩) | ⟨done, stored⟩
    · cases returned.symm.trans crashed
    · cases returned.symm.trans finishing
    · cases returned.symm.trans failed
    · cases returned.symm.trans done
      exact ⟨rfl, stored⟩
  · intro recorded current
    obtain ⟨row, stored, _, state⟩ := law.current attempt current
    refine ⟨row, stored, ?_⟩
    rcases state with ⟨_, _, unrecorded⟩ | ⟨before, f, inLedger, rfl⟩
    · exact absurd unrecorded recorded
    · rw [closed.records f inLedger]
      exact ⟨rfl, rfl⟩

private theorem LookupLaw.after_failed (law : LookupLaw plan w)
    (lookup : ∀ attempt, (plan attempt).intent.mode = .lookup)
    (unflagged : ∀ attempt, (plan attempt).intent.Unflagged)
    {message : String} (member : .failed message ∈ lookupsOf attempt w.history)
    (current : claimant w.history = some attempt) (retry : AttemptId) (now : Time)
    (sameDigest : digestOf plan retry = digestOf plan attempt) :
    beginKind w.row ((plan retry).beginInput retry) now = .lookupThenSend ∨
      beginKind w.row ((plan retry).beginInput retry) now = .busy ∧
        ∃ row, w.row = some row ∧ row.leaseAttempt = some attempt ∧
          (row.snapshot now).leaseExpired = false := by
  have closed := law.close attempt _ member (.lookupFailed message) rfl
  obtain ⟨row, stored, digest, state⟩ := law.current attempt current
  have open_ : row.state = .sending ∨ row.state = .unknown := by
    rcases state with ⟨sending, _⟩ | ⟨before, f, inLedger, rfl⟩
    · exact Or.inl sending
    · rw [closed.records f inLedger]
      exact Or.inr rfl
  rw [stored]
  have verdict := @lookup_or_wait row ((plan retry).beginInput retry) now open_
    (digest.trans sameDigest.symm) (lookup retry) (unflagged retry)
  rcases verdict with looks | ⟨busy, sending, live⟩
  · exact Or.inl looks
  · refine Or.inr ⟨busy, row, rfl, ?_, live⟩
    rcases state with ⟨_, held, _⟩ | ⟨before, f, inLedger, rfl⟩
    · exact held
    · rw [closed.records f inLedger] at sending
      cases sending

private theorem lookupEffect_of_error_status {status : Nat} (body preview : String)
    (document : Except String Bool) (present : status ≠ 404)
    (error : status < 200 ∨ 300 ≤ status) :
    lookupEffect (.response status body preview document) =
      .failed ("lookup status " ++ toString status ++ ": " ++ preview) := by
  simp [lookupEffect, present, error]

/-- Before each write the effects of the earlier attempts are settled or looked up. After a
failed lookup nothing is sent for the same payload but behind another lookup; a retry with
another payload digest is refused as a conflict. -/
theorem lookup_delivery_never_resends_blindly
    (lookup : ∀ attempt, (plan attempt).intent.mode = .lookup)
    (unflagged : ∀ attempt, (plan attempt).intent.Unflagged)
    (clock : Time) (actions : List Action) (w : World)
    (inLease : GuardedRuns.Obeys (World.step plan) WritesInLease (.start none clock) actions)
    (ran : World.run plan (.start none clock) actions = some w) :
    LooksUpFirst plan w ∧
      ∀ status body preview document, status ≠ 404 → status < 200 ∨ 300 ≤ status →
        ∃ message, lookupEffect (.response status body preview document) = .failed message := by
  have law := lookupLaw_run lookup unflagged inLease ran
  refine ⟨?_, fun _ body preview document present error =>
    ⟨_, lookupEffect_of_error_status body preview document present error⟩⟩
  refine ⟨?_, law.sound.writers.once, fun _ _ _ member => law.after_found member, ?_⟩
  · intro later before author time split attempt granted different
    have clear := law.sound.blind.before_write split attempt different
    exact settled_or_lookedUp granted clear
  · intro attempt message member
    have closed := law.close attempt _ member (.lookupFailed message) rfl
    refine ⟨closed.unwritten, ?_, ?_⟩
    · intro f recorded
      rw [closed.records f recorded]
      rfl
    · intro current retry now sameDigest
      exact law.after_failed lookup unflagged member current retry now sameDigest

def lookupPlan : AttemptPlan :=
  { op := { jobID := 7, rowIndex := 3, stepIndex := 0, stepName := "main" }
    operationKey := "k1"
    intent :=
      { payloadSHA256 := "p1", mode := .lookup, retentionHours := 24
        resend := false, confirmNotApplied := false } }

/-- Unknown; a failed lookup; a lookup that finds nothing, and the request again. -/
def lookTwiceThenSend : List Action :=
  [.begin "run:1:1" 0 .acknowledged, .write "run:1:1",
    .answer "run:1:1" (.response 503 "null" "(empty body)"), .finish "run:1:1" .acknowledged,
    .begin "run:1:2" 0 .acknowledged,
    .lookup "run:1:2" (.response 500 "null" "(empty body)" (.ok false)),
    .finish "run:1:2" .acknowledged,
    .begin "run:1:3" 0 .acknowledged,
    .lookup "run:1:3" (.response 404 "null" "(empty body)" (.ok false)), .write "run:1:3"]

theorem looks_up_after_unknown :
    ∃ w, World.run (fun _ => lookupPlan) (.start none 0) lookTwiceThenSend = some w ∧
      "run:1:1" ∈ writers w.history ∧ "run:1:3" ∈ writers w.history ∧
      LooksUpFirst (fun _ => lookupPlan) w := by
  refine ⟨_, rfl, by decide, by decide, ?_⟩
  exact (lookup_delivery_never_resends_blindly (fun _ => rfl) (fun _ => ⟨rfl, rfl⟩) 0
    lookTwiceThenSend _ (by decide) rfl).1

end MigrationPlatform.Delivery
