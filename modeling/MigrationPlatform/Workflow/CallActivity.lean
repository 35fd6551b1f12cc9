/-
The `CallEndpoint` activity as a workflow sees it: one attempt from start to
end, and the attempts that Temporal makes of it.

An attempt is a function of its environment: the row its begin finds, the
lookup reply, the send result, the replies of the ledger to its finish, and
whether its worker is lost. The branches are those of
`MigrationPlatform.Delivery.CallEndpoint`. The row found is arbitrary, so any
other attempts may have come in between. A lost worker is noticed as a timeout,
and a timeout carries the failure of the attempt before it as its cause.
-/

import MigrationPlatform.Delivery.CallEndpoint

namespace MigrationPlatform.Workflow

open MigrationPlatform.Delivery

/-- What one call of `ledger.finish` returns; `cancelled` is a context that
ends before the call is made. -/
inductive FinishReply
  | acknowledged
  | leaseLost
  | failed (message : String)
  | cancelled (message : String)
deriving DecidableEq, Repr

def finishLoop (reply : Nat → FinishReply) (tries : Nat) (err : Option String) :
    Nat → Option String
  | 0 => err
  | remaining + 1 =>
      match reply tries with
      | .acknowledged => none
      | .leaseLost => some errLeaseLost
      | .cancelled message => some ((err.map (· ++ "\n")).getD "" ++ message)
      | .failed message => finishLoop reply (tries + 1) (some message) remaining

def finishWithRetry (reply : Nat → FinishReply) : Option String :=
  finishLoop reply 0 none finishTries

inductive AuthError
  | unavailable (message : String)
  | other (message : String)
deriving DecidableEq, Repr

def AuthError.message : AuthError → String
  | .unavailable message => message
  | .other message => message

def AuthError.callError : AuthError → CallError
  | .unavailable message => .application .secretUnavailable message true
  | .other message => .plain message

/-- Where the worker of an attempt was lost: before it wrote a request, while
the request was in flight, or once it had the answer. -/
inductive Lost
  | beforeWrite
  | inFlight
  | afterAnswer
deriving DecidableEq, Repr

/-- `expired` means that the schedule-to-close timeout leaves no room for
another attempt after this one. -/
structure AttemptEnv where
  attemptID : AttemptId
  auth : Option AuthError := none
  begin : Except String (Option OperationRow × Time)
  lookup : LookupReply := .transportError ""
  send : SendResult
  finish : Nat → FinishReply := fun _ => .acknowledged
  lost : Option Lost := none
  expired : Bool := false

inductive AttemptEnd
  | returned (output : CallEndpointOutput) (err : Option CallError)
  | timedOut
deriving DecidableEq, Repr

/-- `effect`: the attempt sent a request whose effect may exist. -/
structure AttemptRun where
  effect : Bool
  ends : AttemptEnd
deriving DecidableEq, Repr

def mayHaveApplied : Completion → Bool
  | .succeeded _ => true
  | .unknown _ => true
  | _ => false

def wasWritten (result : SendResult) : Bool := result.wrote || result.err.isNone

def closeAttempt (mode : DeliveryMode) (completion : Completion) (reply : Nat → FinishReply) :
    AttemptEnd :=
  .returned (completion.returns mode (finishWithRetry reply)).1
    (completion.returns mode (finishWithRetry reply)).2

def sendRequest (mode : DeliveryMode) (env : AttemptEnv) : AttemptRun :=
  if env.lost = some .inFlight ∧ wasWritten env.send = true then
    { effect := true, ends := .timedOut }
  else
    { effect := mayHaveApplied (classify env.send)
      ends :=
        if env.lost = some .afterAnswer then .timedOut
        else closeAttempt mode (classify env.send) env.finish }

def proceed (mode : DeliveryMode) (env : AttemptEnv) (now : Time) (begun : BeginResult) :
    AttemptRun :=
  match afterBegin now begun with
  | .returned output err => { effect := false, ends := .returned output err }
  | .lookingUp deadline =>
      match afterLookup deadline (lookupEffect env.lookup) with
      | .finishing completion _ =>
          { effect := false, ends := closeAttempt mode completion env.finish }
      | _ => sendRequest mode env
  | _ => sendRequest mode env

def lookupRequired : String := "delivery mode lookup requires delivery.lookup"

def returnsEarly (message : String) (err : CallError) : AttemptRun :=
  { effect := false, ends := .returned { error := message } (some err) }

def callEndpoint (sha256Hex : String → String) (input : CallEndpointInput) (env : AttemptEnv) :
    AttemptRun :=
  if env.lost = some .beforeWrite then { effect := false, ends := .timedOut }
  else if input.mode = .lookup ∧ input.lookup = none then
    returnsEarly lookupRequired (.application .invalidDelivery lookupRequired true)
  else
    match env.auth with
    | some err => returnsEarly err.message err.callError
    | none =>
        match env.begin with
        | .error message =>
            returnsEarly ("open operation attempt: " ++ message)
              (.plain ("open operation attempt: " ++ message))
        | .ok (row, now) =>
            proceed input.mode env now
              (beginRow row ((input.plan sha256Hex).beginInput env.attemptID) now).1

/-- A plain error is retried; an application error unless it says otherwise. -/
def AttemptEnd.retryable : AttemptEnd → Bool
  | .returned _ none => false
  | .returned _ (some (.plain _)) => true
  | .returned _ (some (.application _ _ nonRetryable)) => !nonRetryable
  | .timedOut => true

/-- A timeout has a cause when another attempt failed before it. -/
inductive ActivityError
  | application (err : CallError)
  | timeout
  | timeoutAfter (cause : ActivityError)
deriving DecidableEq, Repr

inductive ActivityResult
  | completed (output : CallEndpointOutput)
  | failed (err : ActivityError)
deriving DecidableEq, Repr

def AttemptEnd.failure : AttemptEnd → Option ActivityError
  | .returned _ err => err.map ActivityError.application
  | .timedOut => some .timeout

/-- `before` is the failure of the attempt before. -/
def AttemptEnd.result (before : Option ActivityError) : AttemptEnd → ActivityResult
  | .returned output none => .completed output
  | .returned _ (some err) => .failed (.application err)
  | .timedOut => .failed ((before.map ActivityError.timeoutAfter).getD .timeout)

structure Attempts where
  earlier : List AttemptEnv
  last : AttemptEnv

def Attempts.all (attempts : Attempts) : List AttemptEnv := attempts.earlier ++ [attempts.last]

def Attempts.before (call : AttemptEnv → AttemptRun) (attempts : Attempts) :
    Option ActivityError :=
  attempts.earlier.getLast?.bind (fun env => (call env).ends.failure)

def Attempts.result (call : AttemptEnv → AttemptRun) (attempts : Attempts) : ActivityResult :=
  (call attempts.last).ends.result (attempts.before call)

theorem Attempts.result_completed {call : AttemptEnv → AttemptRun} {attempts : Attempts}
    {output : CallEndpointOutput} (completed : attempts.result call = .completed output) :
    (call attempts.last).ends = .returned output none := by
  unfold Attempts.result at completed
  cases ends : (call attempts.last).ends with
  | timedOut =>
      rw [ends] at completed
      cases completed
  | returned given err =>
      rw [ends] at completed
      cases err with
      | some _ => cases completed
      | none =>
          cases completed
          rfl

/-- `none` when the environment says nothing of an attempt that is due. -/
def executeActivity (call : AttemptEnv → AttemptRun) : Nat → List AttemptEnv → Option Attempts
  | 0, _ => none
  | _ + 1, [] => none
  | maxAttempts + 1, env :: rest =>
      if (call env).ends.retryable = true ∧ maxAttempts ≠ 0 ∧ env.expired = false then
        (executeActivity call maxAttempts rest).map
          (fun attempts => { attempts with earlier := env :: attempts.earlier })
      else some { earlier := [], last := env }

theorem executeActivity_retried {call : AttemptEnv → AttemptRun} :
    ∀ {maxAttempts : Nat} {envs : List AttemptEnv} {attempts : Attempts},
      executeActivity call maxAttempts envs = some attempts →
      ∀ env ∈ attempts.earlier, (call env).ends.retryable = true := by
  intro maxAttempts
  induction maxAttempts with
  | zero => exact fun impossible => nomatch impossible
  | succ remaining ih =>
      intro envs attempts executed
      cases envs with
      | nil => cases executed
      | cons first rest =>
          unfold executeActivity at executed
          split at executed
          · rename_i again
            obtain ⟨later, made, rfl⟩ := Option.map_eq_some_iff.mp executed
            exact List.forall_mem_cons.mpr ⟨again.1, ih made⟩
          · cases executed
            exact List.forall_mem_nil _

/-- What `errors.As` finds first: an application error, also as the cause of a
timeout. -/
def ActivityError.applicationError : ActivityError → Option CallError
  | .application err => some err
  | .timeout => none
  | .timeoutAfter cause => cause.applicationError

/-- An unknown outcome, a busy operation, or a timeout without an application
error behind it. -/
def effectMayExist (err : ActivityError) : Bool :=
  match err.applicationError with
  | some (.application .outcomeUnknown _ _) => true
  | some (.application .operationBusy _ _) => true
  | some _ => false
  | none => true

inductive StepStatus
  | succeeded
  | failed
  | unresolved
deriving DecidableEq, Repr

def stepStatus : ActivityResult → StepStatus
  | .failed err => if effectMayExist err = true then .unresolved else .failed
  | .completed output =>
      if output.outcome = .unresolved then .unresolved
      else if output.succeeded = false then .failed
      else .succeeded

theorem timedOut_status (before : Option ActivityError) :
    stepStatus (AttemptEnd.timedOut.result before) ≠ .failed ↔
      ∀ err ∈ before, effectMayExist err = true := by
  cases before with
  | none => simp [AttemptEnd.result, stepStatus, effectMayExist, ActivityError.applicationError]
  | some err =>
      have same : effectMayExist (.timeoutAfter err) = effectMayExist err := rfl
      simp [AttemptEnd.result, stepStatus, same]

theorem closeAttempt_status (mode : DeliveryMode) (completion : Completion)
    (reply : Nat → FinishReply) (before : Option ActivityError) :
    stepStatus ((closeAttempt mode completion reply).result before) ≠ .failed ↔
      completion.definite = false ∧ finishWithRetry reply = none := by
  unfold closeAttempt
  cases err : finishWithRetry reply with
  | some message =>
      have failed : stepStatus ((AttemptEnd.returned
          (completion.returns mode (some message)).1
          (completion.returns mode (some message)).2).result before) = .failed := by
        cases completion <;> rfl
      simp [failed]
  | none =>
      cases completion with
      | unknown result =>
          by_cases manual : mode = .manual <;>
            simp [Completion.returns, manual, AttemptEnd.result, stepStatus, effectMayExist,
              ActivityError.applicationError, Completion.definite]
      | _ => simp [Completion.returns, AttemptEnd.result, stepStatus, effectMayExist,
          ActivityError.applicationError, Completion.definite]

private theorem mayHaveApplied_classify (result : SendResult) :
    mayHaveApplied (classify result) = !(classify result).definite := by
  cases closed : classify result with
  | lookupFailed message =>
      unfold classify at closed
      repeat' split at closed
      all_goals cases closed
  | lookupFound status body =>
      unfold classify at closed
      repeat' split at closed
      all_goals cases closed
  | _ => rfl

/-- The send of the attempt does not make its step look failed. `heard`: what
the attempt before ended with does not, either. -/
def SendConclusive (heard : Prop) (env : AttemptEnv) : Prop :=
  if env.lost = some .inFlight ∧ wasWritten env.send = true ∨ env.lost = some .afterAnswer then heard
  else mayHaveApplied (classify env.send) = true ∧ finishWithRetry env.finish = none

def ProceedsConclusive (heard : Prop) (env : AttemptEnv) : DecisionKind → Prop
  | .busy => True
  | .replay => True
  | .unresolved => True
  | .send => SendConclusive heard env
  | .lookupThenSend =>
      match lookupEffect env.lookup with
      | .absent => SendConclusive heard env
      | .failed _ => finishWithRetry env.finish = none
      | .found _ _ => finishWithRetry env.finish = none

/-- The attempt does not make its step look failed: its worker is lost behind an
attempt that did not either, or it opens the operation and is refused, told to
wait or given the receipt, or it closes an attempt that was not answered by a
refusal and has that recorded. -/
def Conclusive (sha256Hex : String → String) (input : CallEndpointInput) (heard : Prop)
    (env : AttemptEnv) : Prop :=
  if env.lost = some .beforeWrite then heard
  else
    ¬(input.mode = .lookup ∧ input.lookup = none) ∧ env.auth = none ∧
      match env.begin with
      | .error _ => False
      | .ok (row, now) =>
          ProceedsConclusive heard env
            (beginKind row ((input.plan sha256Hex).beginInput env.attemptID) now)

theorem sendRequest_status (mode : DeliveryMode) (env : AttemptEnv)
    (before : Option ActivityError) :
    stepStatus ((sendRequest mode env).ends.result before) ≠ .failed ↔
      SendConclusive (∀ err ∈ before, effectMayExist err = true) env := by
  unfold sendRequest SendConclusive
  by_cases inFlight : env.lost = some .inFlight ∧ wasWritten env.send = true
  · rw [if_pos inFlight, if_pos (Or.inl inFlight)]
    exact timedOut_status before
  · rw [if_neg inFlight]
    by_cases after : env.lost = some .afterAnswer
    · rw [if_pos (Or.inr after)]
      simp only [if_pos after]
      exact timedOut_status before
    · rw [if_neg (not_or.mpr ⟨inFlight, after⟩)]
      simp only [if_neg after]
      rw [closeAttempt_status, mayHaveApplied_classify, Bool.not_eq_true']

private theorem proceed_status (mode : DeliveryMode) (env : AttemptEnv) (now : Time)
    (begun : BeginResult) (before : Option ActivityError) :
    stepStatus ((proceed mode env now begun).ends.result before) ≠ .failed ↔
      ProceedsConclusive (∀ err ∈ before, effectMayExist err = true) env
        begun.decision.kind := by
  unfold proceed afterBegin
  cases begun.decision.kind with
  | send => exact sendRequest_status mode env before
  | lookupThenSend =>
      simp only [ProceedsConclusive]
      cases lookupEffect env.lookup with
      | absent => exact sendRequest_status mode env before
      | failed message =>
          change stepStatus ((closeAttempt mode (.lookupFailed message) env.finish).result
            before) ≠ _ ↔ _
          rw [closeAttempt_status]
          exact and_iff_right rfl
      | found status body =>
          change stepStatus ((closeAttempt mode (.lookupFound status body) env.finish).result
            before) ≠ _ ↔ _
          rw [closeAttempt_status]
          exact and_iff_right rfl
  | _ => simp [ProceedsConclusive, AttemptEnd.result, stepStatus, effectMayExist,
      ActivityError.applicationError]

private theorem returnsEarly_status {message : String} {err : CallError}
    (definite : effectMayExist (.application err) = false) (before : Option ActivityError) :
    stepStatus ((returnsEarly message err).ends.result before) = .failed := by
  simp [returnsEarly, AttemptEnd.result, stepStatus, definite]

theorem callEndpoint_status (sha256Hex : String → String) (input : CallEndpointInput)
    (env : AttemptEnv) (before : Option ActivityError) :
    stepStatus ((callEndpoint sha256Hex input env).ends.result before) ≠ .failed ↔
      Conclusive sha256Hex input (∀ err ∈ before, effectMayExist err = true) env := by
  unfold callEndpoint Conclusive
  by_cases lost : env.lost = some .beforeWrite
  · rw [if_pos lost, if_pos lost]
    exact timedOut_status before
  · rw [if_neg lost, if_neg lost]
    by_cases unusable : input.mode = .lookup ∧ input.lookup = none
    · rw [if_pos unusable, returnsEarly_status rfl]
      exact ⟨fun impossible => absurd rfl impossible, fun usable => absurd unusable usable.1⟩
    · rw [if_neg unusable, and_iff_right unusable]
      cases auth : env.auth with
      | some err =>
          have definite : effectMayExist (.application err.callError) = false := by
            cases err <;> rfl
          simp only [returnsEarly_status definite]
          exact ⟨fun impossible => absurd rfl impossible, fun opened => nomatch opened.1⟩
      | none =>
          rw [and_iff_right rfl]
          cases begun : env.begin with
          | error message =>
              simp only [@returnsEarly_status _ (.plain ("open operation attempt: " ++ message)) rfl]
              exact ⟨fun impossible => absurd rfl impossible, False.elim⟩
          | ok found => exact proceed_status input.mode env found.2 _ before

private theorem failure_effectMayExist {ends : AttemptEnd} (again : ends.retryable = true) :
    (∀ err ∈ ends.failure, effectMayExist err = true) ↔ stepStatus (ends.result none) ≠ .failed := by
  cases ends with
  | timedOut => simp [timedOut_status, AttemptEnd.failure, effectMayExist,
      ActivityError.applicationError]
  | returned output err =>
      cases err with
      | none => cases again
      | some err => simp [AttemptEnd.failure, AttemptEnd.result, stepStatus]

def Attempts.Heard (sha256Hex : String → String) (input : CallEndpointInput)
    (attempts : Attempts) : Prop :=
  ∀ env ∈ attempts.earlier.getLast?, Conclusive sha256Hex input True env

private theorem heard_iff {sha256Hex : String → String} {input : CallEndpointInput}
    {attempts : Attempts}
    (retried : ∀ env ∈ attempts.earlier,
      (callEndpoint sha256Hex input env).ends.retryable = true) :
    (∀ err ∈ attempts.before (callEndpoint sha256Hex input), effectMayExist err = true) ↔
      attempts.Heard sha256Hex input := by
  unfold Attempts.before Attempts.Heard
  cases last : attempts.earlier.getLast? with
  | none => simp
  | some env =>
      have again := retried env (List.mem_of_getLast? last)
      have alone : (∀ err ∈ (none : Option ActivityError), effectMayExist err = true) = True :=
        eq_true (fun _ impossible => nomatch impossible)
      simp only [Option.bind_some, failure_effectMayExist again, Option.mem_some_iff,
        forall_eq', callEndpoint_status, alone]

theorem result_status {sha256Hex : String → String} {input : CallEndpointInput}
    {attempts : Attempts}
    (retried : ∀ env ∈ attempts.earlier,
      (callEndpoint sha256Hex input env).ends.retryable = true) :
    stepStatus (attempts.result (callEndpoint sha256Hex input)) ≠ .failed ↔
      Conclusive sha256Hex input (attempts.Heard sha256Hex input) attempts.last := by
  unfold Attempts.result
  rw [callEndpoint_status, heard_iff retried]

end MigrationPlatform.Workflow
