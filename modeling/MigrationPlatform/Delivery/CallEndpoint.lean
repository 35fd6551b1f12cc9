/-
One attempt of the `CallEndpoint` activity, as the phases it passes through.

The activity opens an attempt in the ledger, looks the effect up when it is told
to, writes the request, waits for the answer and closes the attempt. Each phase
is what the code does next, and each `after…` function is the code between two
interactions with the outside: the ledger, the lookup and the destination.

The HTTP exchange itself is given by what it returns. `preview` stands for the
response excerpt in an error message. Latencies, log lines and metrics are left
out, and so are the request headers.
-/

import MigrationPlatform.Delivery.OperationLedger

namespace MigrationPlatform.Delivery

structure RenderedLookup where
  method : String := ""
  url : String
  foundPath : String
deriving DecidableEq, Repr

/-- `payloadJSON` is `json.Marshal(in.Payload)`: `null` for a nil map. -/
structure CallEndpointInput where
  jobID : Int
  rowIndex : Int
  stepIndex : Int
  stepName : String
  method : String
  payloadJSON : String
  hasBody : Bool
  idempotencyKey : String
  deliveryMode : Option DeliveryMode := none
  retentionHours : Int := 0
  lookup : Option RenderedLookup := none
  resend : Bool := false
  confirmNotApplied : Bool := false
deriving DecidableEq, Repr

def defaultDeliveryMode (method : String) : DeliveryMode :=
  if method ∈ ["GET", "HEAD", "PUT", "DELETE", "OPTIONS"] then .idempotent else .manual

def CallEndpointInput.mode (input : CallEndpointInput) : DeliveryMode :=
  input.deliveryMode.getD (defaultDeliveryMode input.method)

def defaultRetentionHours : Nat := 24

def CallEndpointInput.retention (input : CallEndpointInput) : Nat :=
  if input.retentionHours ≤ 0 then defaultRetentionHours else input.retentionHours.toNat

def CallEndpointInput.op (input : CallEndpointInput) : OperationRef :=
  { jobID := input.jobID, rowIndex := input.rowIndex
    stepIndex := input.stepIndex, stepName := input.stepName }

def payloadNonEmpty (payloadJSON : String) : Bool :=
  decide (payloadJSON ≠ "null" ∧ payloadJSON ≠ "\x7b\x7d")

/-- `sha256Hex` is SHA-256 followed by lower-case hexadecimal. -/
def payloadDigest (sha256Hex : String → String) (payloadJSON : String) (hasBody : Bool) : String :=
  sha256Hex (if hasBody || payloadNonEmpty payloadJSON then payloadJSON else "null")

structure AttemptPlan where
  op : OperationRef
  operationKey : String
  intent : AttemptIntent
deriving DecidableEq, Repr

def AttemptPlan.beginInput (plan : AttemptPlan) (attempt : AttemptId) : BeginInput :=
  { op := plan.op, attemptID := attempt
    operationKey := plan.operationKey, intent := plan.intent }

def CallEndpointInput.plan (sha256Hex : String → String) (input : CallEndpointInput) :
    AttemptPlan :=
  { op := input.op
    operationKey := input.idempotencyKey
    intent :=
      { payloadSHA256 := payloadDigest sha256Hex input.payloadJSON input.hasBody
        mode := input.mode
        retentionHours := input.retention
        resend := input.resend
        confirmNotApplied := input.confirmNotApplied } }

inductive ErrorType
  | outcomeUnknown
  | operationBusy
  | secretUnavailable
  | invalidDelivery
deriving DecidableEq, Repr

/-- A plain Go error reaches the workflow as an application error whose type is
the name of its Go type, which is none of the named ones. -/
inductive CallError
  | plain (message : String)
  | application (type : ErrorType) (message : String) (nonRetryable : Bool)
deriving DecidableEq, Repr

inductive CallOutcome
  | none
  | succeeded
  | failed
  | unresolved
deriving DecidableEq, Repr

structure CallEndpointOutput where
  status : Nat := 0
  body : String := ""
  succeeded : Bool := false
  error : String := ""
  outcome : CallOutcome := .none
  replayed : Bool := false
deriving DecidableEq, Repr

/-- `transportError` covers every failure before a response: an invalid
`foundPath`, an unusable request and the transport. `document` is the parsed
body: whether `foundPath` matched a non-null value in it. -/
inductive LookupReply
  | transportError (message : String)
  | response (status : Nat) (body preview : String) (document : Except String Bool)

inductive LookupEffect
  | failed (message : String)
  | absent
  | found (status : Nat) (body : String)
deriving DecidableEq, Repr

def lookupEffect : LookupReply → LookupEffect
  | .transportError message => .failed message
  | .response status body preview document =>
      if status = 404 then .absent
      else if status < 200 ∨ 300 ≤ status then
        .failed ("lookup status " ++ toString status ++ ": " ++ preview)
      else
        match document with
        | .error message => .failed ("lookup response is not JSON: " ++ message)
        | .ok true => .found status body
        | .ok false => .absent

/-- `err` is set when no response was read; `wrote` once request headers
reached the connection. -/
structure SendResult where
  status : Nat := 0
  body : String := ""
  preview : String := ""
  wrote : Bool
  err : Option String := none
deriving DecidableEq, Repr

inductive Answer
  | response (status : Nat) (body preview : String)
  | broken (message : String)
deriving DecidableEq, Repr

def Answer.result : Answer → SendResult
  | .response status body preview =>
      { status := status, body := body, preview := preview, wrote := true }
  | .broken message => { wrote := true, err := some message }

def neverWrittenResult (message : String) : SendResult :=
  { wrote := false, err := some message }

def SendResult.describe (result : SendResult) : String :=
  match result.err with
  | some message => message
  | none => "status " ++ toString result.status ++ ": " ++ result.preview

inductive Completion
  | lookupFailed (message : String)
  | lookupFound (status : Nat) (body : String)
  | notSent (result : SendResult)
  | succeeded (result : SendResult)
  | rejected (result : SendResult)
  | unknown (result : SendResult)
deriving DecidableEq, Repr

def classify (result : SendResult) : Completion :=
  if (result.err.isSome ∧ result.wrote = false) ∨ (result.err = none ∧ result.status = 429) then
    .notSent result
  else if result.err = none ∧ 200 ≤ result.status ∧ result.status < 300 then
    .succeeded result
  else if result.err = none ∧ 400 ≤ result.status ∧ result.status < 500 ∧ result.status ≠ 408 then
    .rejected result
  else .unknown result

def unknownMessage (result : SendResult) : String := "outcome unknown: " ++ result.describe

def manualMessage (result : SendResult) : String :=
  unknownMessage result ++
    "; the destination has no deduplication or lookup policy, so it is not re-sent"

def lookupFailedMessage (message : String) : String :=
  "lookup before re-send failed: " ++ message

def Completion.finishInput (mode : DeliveryMode) : Completion → FinishInput
  | .lookupFailed message =>
      { outcome := .unknown, state := .unknown, error := lookupFailedMessage message }
  | .lookupFound status body =>
      { outcome := .foundByLookup, state := .succeeded, httpStatus := status, receipt := body }
  | .notSent result =>
      { outcome := .notSent, state := .pending, httpStatus := result.status
        error := result.describe }
  | .succeeded result =>
      { outcome := .responded, state := .succeeded, httpStatus := result.status
        receipt := result.body }
  | .rejected result =>
      { outcome := .responded, state := .failed, httpStatus := result.status
        error := result.describe }
  | .unknown result =>
      if mode = .manual then
        { outcome := .unknown, state := .unresolved, httpStatus := result.status
          error := manualMessage result }
      else
        { outcome := .unknown, state := .unknown, httpStatus := result.status
          error := unknownMessage result }

def Completion.returns (mode : DeliveryMode) (completion : Completion)
    (finishError : Option String) : CallEndpointOutput × Option CallError :=
  match completion with
  | .lookupFailed message =>
      let msg := lookupFailedMessage message
      ({ error := msg },
        match finishError with
        | some err => some (.plain err)
        | none => some (.application .outcomeUnknown msg false))
  | .lookupFound status body =>
      match finishError with
      | some err => ({ error := err }, some (.plain err))
      | none =>
          ({ status := status, body := body, succeeded := true, outcome := .succeeded
             replayed := true }, none)
  | .notSent result =>
      let out : CallEndpointOutput :=
        { status := result.status, body := result.body, error := result.describe }
      (out, some (.plain (finishError.getD out.error)))
  | .succeeded result =>
      match finishError with
      | some err => ({ error := "record receipt: " ++ err }, some (.plain ("record receipt: " ++ err)))
      | none =>
          ({ status := result.status, body := result.body, succeeded := true
             outcome := .succeeded }, none)
  | .rejected result =>
      ({ status := result.status, body := result.body, outcome := .failed
         error := result.describe }, finishError.map .plain)
  | .unknown result =>
      let out : CallEndpointOutput :=
        { status := result.status, body := result.body, error := unknownMessage result }
      match finishError with
      | some err => (out, some (.plain err))
      | none =>
          if mode = .manual then
            ({ out with outcome := .unresolved, error := manualMessage result }, none)
          else (out, some (.application .outcomeUnknown out.error false))

/-! ### Phases -/

/-- `deadline` is the end of the attempt's own lease. `tries` counts the calls
of `ledger.finish` that `finishWithRetry` has made. -/
inductive Phase
  | ready
  | lookingUp (deadline : Time)
  | sending (deadline : Time)
  | inFlight
  | finishing (completion : Completion) (tries : Nat)
  | returned (output : CallEndpointOutput) (err : Option CallError)
  | crashed
deriving DecidableEq, Repr

/-- The delays `0, 200ms, 1s, 2s` of `finishWithRetry`. -/
def finishTries : Nat := 4

/-- A stored receipt is valid JSON, so `safeJSON` only replaces a null column. -/
def replayBody (receipt : Option String) : String := receipt.getD "null"

def afterBegin (now : Time) (result : BeginResult) : Phase :=
  match result.decision.kind with
  | .busy =>
      .returned { error := result.decision.reason }
        (some (.application .operationBusy result.decision.reason false))
  | .replay =>
      .returned
        { status := result.snapshot.receiptStatus, body := replayBody result.snapshot.receipt
          succeeded := true, outcome := .succeeded, replayed := true } none
  | .unresolved =>
      .returned { outcome := .unresolved, error := result.decision.reason } none
  | .lookupThenSend => .lookingUp (now + operationLease)
  | .send => .sending (now + operationLease)

def beginFailed (message : String) : Phase :=
  .returned { error := "open operation attempt: " ++ message }
    (some (.plain ("open operation attempt: " ++ message)))

def afterLookup (deadline : Time) : LookupEffect → Phase
  | .failed message => .finishing (.lookupFailed message) 0
  | .found status body => .finishing (.lookupFound status body) 0
  | .absent => .sending deadline

def afterSend (result : SendResult) : Phase := .finishing (classify result) 0

def returnedFrom (mode : DeliveryMode) (completion : Completion) (finishError : Option String) :
    Phase :=
  .returned (completion.returns mode finishError).1 (completion.returns mode finishError).2

def errLeaseLost : String := "operation lease lost before the attempt finished"

def afterFailedTry (mode : DeliveryMode) (completion : Completion) (tries : Nat)
    (message : String) : Phase :=
  if tries + 1 < finishTries then .finishing completion (tries + 1)
  else returnedFrom mode completion (some message)

theorem append_ne_empty {text : String} (given : text ≠ "") (rest : String) :
    text ++ rest ≠ "" := by
  intro empty
  exact given (String.append_eq_empty_iff.mp empty).1

def Completion.definite : Completion → Bool
  | .notSent _ => true
  | .rejected _ => true
  | _ => false

theorem Completion.finishInput_definite (mode : DeliveryMode) (completion : Completion) :
    (completion.finishInput mode).state.definite = completion.definite := by
  cases completion with
  | unknown result =>
      by_cases manual : mode = .manual <;>
        simp [Completion.finishInput, manual, OpState.definite, Completion.definite]
  | _ => rfl

theorem Completion.finishInput_ne_sending (mode : DeliveryMode) (completion : Completion) :
    (completion.finishInput mode).state ≠ .sending := by
  cases completion with
  | unknown result =>
      by_cases manual : mode = .manual <;> simp [Completion.finishInput, manual]
  | _ => simp [Completion.finishInput]

/-- A completion that the code can produce: a success carries a 2xx status. -/
def Completion.Sound : Completion → Prop
  | .lookupFound status _ => 200 ≤ status
  | .succeeded result => 200 ≤ result.status
  | _ => True

theorem lookupEffect_found {reply : LookupReply} {status : Nat} {body : String}
    (found : lookupEffect reply = .found status body) : 200 ≤ status ∧ status < 300 := by
  cases reply with
  | transportError message => cases found
  | response code text preview document =>
      simp only [lookupEffect] at found
      split at found
      · cases found
      · split at found
        · cases found
        · rename_i inRange
          cases document with
          | error message => cases found
          | ok hit =>
              cases hit with
              | false => cases found
              | true =>
                  injection found with sameStatus
                  omega

theorem classify_succeeded {result sent : SendResult} (ok : classify result = .succeeded sent) :
    sent = result ∧ 200 ≤ result.status ∧ result.status < 300 := by
  unfold classify at ok
  split at ok
  · cases ok
  · split at ok
    · rename_i inRange
      injection ok with same
      exact ⟨same.symm, inRange.2.1, inRange.2.2⟩
    · split at ok <;> cases ok

theorem classify_sound (result : SendResult) : (classify result).Sound := by
  cases closed : classify result with
  | succeeded sent =>
      obtain ⟨rfl, enough, _⟩ := classify_succeeded closed
      exact enough
  | lookupFound status body =>
      unfold classify at closed
      repeat' split at closed
      all_goals cases closed
  | _ => trivial

theorem Completion.Sound.status_ne_zero {mode : DeliveryMode} {completion : Completion}
    (sound : completion.Sound) (done : (completion.finishInput mode).state = .succeeded) :
    (completion.finishInput mode).httpStatus ≠ 0 := by
  cases completion with
  | lookupFound status body =>
      change status ≠ 0
      change 200 ≤ status at sound
      omega
  | succeeded result =>
      change result.status ≠ 0
      change 200 ≤ result.status at sound
      omega
  | unknown result =>
      by_cases manual : mode = .manual <;> simp [Completion.finishInput, manual] at done
  | _ => cases done

end MigrationPlatform.Delivery
