/-
Any number of `CallEndpoint` attempts on one operation, interleaved.

A world holds the operation's ledger row, the clock and the phase of every
attempt. An action is one interaction of one attempt with the outside, or the
passing of time. A transaction of the ledger is one action, since it locks the
row; it may commit and be acknowledged, commit and lose its acknowledgement,
or not commit. An attempt may crash in any phase.

The history is what happened so far, newest event first. No step reads it.
-/

import MigrationPlatform.Delivery.CallEndpoint
import MigrationPlatform.Foundation.GuardedRuns

namespace MigrationPlatform.Delivery

inductive Event
  | begun (attempt : AttemptId) (now : Time) (kind : DecisionKind)
  | lookedUp (attempt : AttemptId) (effect : LookupEffect)
  | wrote (attempt : AttemptId) (time : Time)
  | answered (attempt : AttemptId) (result : SendResult)
  | recorded (attempt : AttemptId) (input : FinishInput)
deriving DecidableEq, Repr

structure World where
  clock : Time
  row : Option OperationRow
  phase : AttemptId → Phase
  history : List Event

def World.start (row : Option OperationRow) (clock : Time) : World :=
  { clock := clock, row := row, phase := fun _ => .ready, history := [] }

inductive TxOutcome
  | acknowledged
  | ackLost (message : String)
  | aborted (message : String)
deriving DecidableEq, Repr

/-- `now` is the begin transaction's timestamp; `abandon` is a context that
ends while `finishWithRetry` waits. -/
inductive Action
  | tick (elapsed : Time)
  | begin (attempt : AttemptId) (now : Time) (tx : TxOutcome)
  | lookup (attempt : AttemptId) (reply : LookupReply)
  | write (attempt : AttemptId)
  | neverWritten (attempt : AttemptId) (message : String)
  | answer (attempt : AttemptId) (answer : Answer)
  | finish (attempt : AttemptId) (tx : TxOutcome)
  | abandon (attempt : AttemptId) (message : String)
  | crash (attempt : AttemptId)

def World.enter (w : World) (attempt : AttemptId) (phase : Phase) : World :=
  { w with phase := Function.update w.phase attempt phase }

def World.note (w : World) (event : Event) : World :=
  { w with history := event :: w.history }

def World.store (w : World) (row : OperationRow) : World := { w with row := some row }

def World.commitBegin (w : World) (input : BeginInput) (now : Time) : World :=
  (w.store (beginRow w.row input now).2).note
    (.begun input.attemptID now (beginKind w.row input now))

def World.finishOnce (w : World) (mode : DeliveryMode) (attempt : AttemptId)
    (completion : Completion) (tries : Nat) (tx : TxOutcome) : World :=
  let f := completion.finishInput mode
  match tx with
  | .aborted message => w.enter attempt (afterFailedTry mode completion tries message)
  | .acknowledged =>
      match finishRow w.row attempt f with
      | some row =>
          ((w.store row).note (.recorded attempt f)).enter attempt
            (returnedFrom mode completion none)
      | none => w.enter attempt (returnedFrom mode completion (some errLeaseLost))
  | .ackLost message =>
      match finishRow w.row attempt f with
      | some row =>
          ((w.store row).note (.recorded attempt f)).enter attempt
            (afterFailedTry mode completion tries message)
      | none => w.enter attempt (afterFailedTry mode completion tries message)

def World.step (plan : AttemptId → AttemptPlan) (w : World) : Action → Option World
  | .tick elapsed => some { w with clock := w.clock + elapsed }
  | .begin attempt now tx =>
      if w.phase attempt = .ready ∧ now ≤ w.clock then
        let input := (plan attempt).beginInput attempt
        match tx with
        | .aborted message => some (w.enter attempt (beginFailed message))
        | .acknowledged => some
            ((w.commitBegin input now).enter attempt
              (afterBegin now (beginRow w.row input now).1))
        | .ackLost message => some
            ((w.commitBegin input now).enter attempt (beginFailed message))
      else none
  | .lookup attempt reply =>
      match w.phase attempt with
      | .lookingUp deadline => some
          ((w.note (.lookedUp attempt (lookupEffect reply))).enter attempt
            (afterLookup deadline (lookupEffect reply)))
      | _ => none
  | .write attempt =>
      match w.phase attempt with
      | .sending _ => some ((w.note (.wrote attempt w.clock)).enter attempt .inFlight)
      | _ => none
  | .neverWritten attempt message =>
      match w.phase attempt with
      | .sending _ => some (w.enter attempt (afterSend (neverWrittenResult message)))
      | _ => none
  | .answer attempt answer =>
      match w.phase attempt with
      | .inFlight => some
          ((w.note (.answered attempt answer.result)).enter attempt (afterSend answer.result))
      | _ => none
  | .finish attempt tx =>
      match w.phase attempt with
      | .finishing completion tries => some
          (w.finishOnce (plan attempt).intent.mode attempt completion tries tx)
      | _ => none
  | .abandon attempt message =>
      match w.phase attempt with
      | .finishing completion _ => some
          (w.enter attempt
            (returnedFrom (plan attempt).intent.mode completion (some message)))
      | _ => none
  | .crash attempt => some (w.enter attempt .crashed)

abbrev World.run (plan : AttemptId → AttemptPlan) : World → List Action → Option World :=
  GuardedRuns.run (World.step plan)

/-- The end was not acknowledged: the attempt tries again or returns an error. -/
def MissedPhase (completion : Completion) (phase : Phase) : Prop :=
  (∃ tries, phase = .finishing completion tries) ∨
    ∃ output err, phase = .returned output (some err)

def ClosingPhase (mode : DeliveryMode) (completion : Completion) (phase : Phase) : Prop :=
  phase = returnedFrom mode completion none ∨ MissedPhase completion phase

inductive Transition (plan : AttemptId → AttemptPlan) (w : World) : Action → World → Prop
  | tick (elapsed : Time) :
      Transition plan w (.tick elapsed) { w with clock := w.clock + elapsed }
  | beginAborted (attempt : AttemptId) (now : Time) (message : String)
      (ready : w.phase attempt = .ready) :
      Transition plan w (.begin attempt now (.aborted message))
        (w.enter attempt (beginFailed message))
  | begun (attempt : AttemptId) (now : Time) (tx : TxOutcome) (next : Phase)
      (ready : w.phase attempt = .ready) (past : now ≤ w.clock)
      (entered : next = afterBegin now (beginRow w.row ((plan attempt).beginInput attempt) now).1 ∨
        ∃ message, next = beginFailed message) :
      Transition plan w (.begin attempt now tx)
        ((w.commitBegin ((plan attempt).beginInput attempt) now).enter attempt next)
  | lookedUp (attempt : AttemptId) (reply : LookupReply) (deadline : Time)
      (phase : w.phase attempt = .lookingUp deadline) :
      Transition plan w (.lookup attempt reply)
        ((w.note (.lookedUp attempt (lookupEffect reply))).enter attempt
          (afterLookup deadline (lookupEffect reply)))
  | wrote (attempt : AttemptId) (deadline : Time) (phase : w.phase attempt = .sending deadline) :
      Transition plan w (.write attempt)
        ((w.note (.wrote attempt w.clock)).enter attempt .inFlight)
  | neverWritten (attempt : AttemptId) (message : String) (deadline : Time)
      (phase : w.phase attempt = .sending deadline) :
      Transition plan w (.neverWritten attempt message)
        (w.enter attempt (afterSend (neverWrittenResult message)))
  | answered (attempt : AttemptId) (answer : Answer) (phase : w.phase attempt = .inFlight) :
      Transition plan w (.answer attempt answer)
        ((w.note (.answered attempt answer.result)).enter attempt (afterSend answer.result))
  | recorded (attempt : AttemptId) (tx : TxOutcome) (completion : Completion) (tries : Nat)
      (row : OperationRow) (next : Phase)
      (phase : w.phase attempt = .finishing completion tries)
      (stored : w.row = some row) (holder : row.leaseAttempt = some attempt)
      (closing : ClosingPhase (plan attempt).intent.mode completion next) :
      Transition plan w (.finish attempt tx)
        (((w.store (row.finished (completion.finishInput (plan attempt).intent.mode))).note
          (.recorded attempt (completion.finishInput (plan attempt).intent.mode))).enter
          attempt next)
  | finishMissed (attempt : AttemptId) (tx : TxOutcome) (completion : Completion) (tries : Nat)
      (next : Phase) (phase : w.phase attempt = .finishing completion tries)
      (missed : MissedPhase completion next) :
      Transition plan w (.finish attempt tx) (w.enter attempt next)
  | abandoned (attempt : AttemptId) (message : String) (completion : Completion) (tries : Nat)
      (next : Phase) (phase : w.phase attempt = .finishing completion tries)
      (missed : MissedPhase completion next) :
      Transition plan w (.abandon attempt message) (w.enter attempt next)
  | crashed (attempt : AttemptId) :
      Transition plan w (.crash attempt) (w.enter attempt .crashed)

theorem returnedFrom_missed (mode : DeliveryMode) (completion : Completion) (message : String) :
    MissedPhase completion (returnedFrom mode completion (some message)) := by
  refine Or.inr ?_
  cases completion <;> exact ⟨_, _, rfl⟩

theorem afterFailedTry_missed (mode : DeliveryMode) (completion : Completion) (tries : Nat)
    (message : String) : MissedPhase completion (afterFailedTry mode completion tries message) := by
  unfold afterFailedTry
  split
  · exact Or.inl ⟨tries + 1, rfl⟩
  · exact returnedFrom_missed mode completion message

private theorem finishOnce_transition {plan : AttemptId → AttemptPlan} {w : World}
    {attempt : AttemptId} {completion : Completion} {tries : Nat} (tx : TxOutcome)
    (phase : w.phase attempt = .finishing completion tries) :
    Transition plan w (.finish attempt tx)
      (w.finishOnce (plan attempt).intent.mode attempt completion tries tx) := by
  cases tx with
  | aborted message =>
      exact .finishMissed attempt _ completion tries _ phase
        (afterFailedTry_missed _ completion tries message)
  | acknowledged =>
      simp only [World.finishOnce]
      split
      · rename_i row recorded
        obtain ⟨before, stored, holder, rfl⟩ := finishRow_eq_some recorded
        exact .recorded attempt _ completion tries before _ phase stored holder
          (Or.inl rfl)
      · exact .finishMissed attempt _ completion tries _ phase
          (returnedFrom_missed _ completion _)
  | ackLost message =>
      simp only [World.finishOnce]
      split
      · rename_i row recorded
        obtain ⟨before, stored, holder, rfl⟩ := finishRow_eq_some recorded
        exact .recorded attempt _ completion tries before _ phase stored holder
          (Or.inr (afterFailedTry_missed _ completion tries message))
      · exact .finishMissed attempt _ completion tries _ phase
          (afterFailedTry_missed _ completion tries message)

/-- Every step is one of the transitions; invariants split on these cases and
never on the step function. -/
theorem step_transition {plan : AttemptId → AttemptPlan} {w next : World} {action : Action}
    (taken : w.step plan action = some next) : Transition plan w action next := by
  cases action with
  | tick elapsed =>
      cases taken
      exact .tick elapsed
  | begin attempt now tx =>
      simp only [World.step] at taken
      split at taken
      · rename_i allowed
        cases tx with
        | aborted message =>
            cases taken
            exact .beginAborted attempt now message allowed.1
        | acknowledged =>
            cases taken
            exact .begun attempt now _ _ allowed.1 allowed.2 (Or.inl rfl)
        | ackLost message =>
            cases taken
            exact .begun attempt now _ _ allowed.1 allowed.2 (Or.inr ⟨message, rfl⟩)
      · cases taken
  | lookup attempt reply =>
      simp only [World.step] at taken
      split at taken
      · rename_i deadline phase
        cases taken
        exact .lookedUp attempt reply deadline phase
      · cases taken
  | write attempt =>
      simp only [World.step] at taken
      split at taken
      · rename_i deadline phase
        cases taken
        exact .wrote attempt deadline phase
      · cases taken
  | neverWritten attempt message =>
      simp only [World.step] at taken
      split at taken
      · rename_i deadline phase
        cases taken
        exact .neverWritten attempt message deadline phase
      · cases taken
  | answer attempt answer =>
      simp only [World.step] at taken
      split at taken
      · rename_i phase
        cases taken
        exact .answered attempt answer phase
      · cases taken
  | finish attempt tx =>
      simp only [World.step] at taken
      split at taken
      · rename_i completion tries phase
        cases taken
        exact finishOnce_transition tx phase
      · cases taken
  | abandon attempt message =>
      simp only [World.step] at taken
      split at taken
      · rename_i completion tries phase
        cases taken
        exact .abandoned attempt message completion tries _ phase
          (returnedFrom_missed _ completion _)
      · cases taken
  | crash attempt =>
      cases taken
      exact .crashed attempt

/-- The induction rule for worlds: what holds at the start and survives every
guarded transition holds after every guarded run. -/
theorem holds_after_run {plan : AttemptId → AttemptPlan} {guard : World → Action → Prop}
    {Invariant : World → Prop}
    (preserved : ∀ w action next, guard w action → Invariant w →
      Transition plan w action next → Invariant next)
    {start final : World} {actions : List Action} (initial : Invariant start)
    (obeys : GuardedRuns.Obeys (World.step plan) guard start actions)
    (ran : World.run plan start actions = some final) : Invariant final :=
  GuardedRuns.invariant_of_obeys
    (fun w action next allowed holds taken =>
      preserved w action next allowed holds (step_transition taken))
    actions start final initial obeys ran

/-! ### Reading the history -/

abbrev digestOf (plan : AttemptId → AttemptPlan) (attempt : AttemptId) : String :=
  (plan attempt).intent.payloadSHA256

def grantees : List Event → List AttemptId
  | [] => []
  | .begun attempt _ kind :: rest =>
      if kind.grants = true then attempt :: grantees rest else grantees rest
  | _ :: rest => grantees rest

def writers : List Event → List AttemptId
  | [] => []
  | .wrote attempt _ :: rest => attempt :: writers rest
  | _ :: rest => writers rest

def answersOf (attempt : AttemptId) : List Event → List SendResult
  | [] => []
  | .answered other result :: rest =>
      if other = attempt then result :: answersOf attempt rest else answersOf attempt rest
  | _ :: rest => answersOf attempt rest

def recordsOf (attempt : AttemptId) : List Event → List FinishInput
  | [] => []
  | .recorded other input :: rest =>
      if other = attempt then input :: recordsOf attempt rest else recordsOf attempt rest
  | _ :: rest => recordsOf attempt rest

/-- The attempt was granted and the ledger holds no definite end for it: no
record that it was refused, rate limited or never written. -/
def Unsettled (history : List Event) (attempt : AttemptId) : Prop :=
  attempt ∈ grantees history ∧ ∀ f ∈ recordsOf attempt history, f.state.definite = false

instance (history : List Event) (attempt : AttemptId) : Decidable (Unsettled history attempt) :=
  inferInstanceAs (Decidable (_ ∧ _))

def EffectMayExist (history : List Event) (attempt : AttemptId) : Prop :=
  attempt ∈ writers history ∧
    ∀ result ∈ answersOf attempt history, (classify result).definite = false

instance (history : List Event) (attempt : AttemptId) :
    Decidable (EffectMayExist history attempt) :=
  inferInstanceAs (Decidable (_ ∧ _))

end MigrationPlatform.Delivery
