/-
The request that `executeStep` hands to `CallEndpoint` for one step of one row.

The template fixes the step's name, method and delivery policy; only the
rendered payload can differ between two runs of the step. The payload digest
that the ledger compares and the idempotency key that the destination sees are
both computed from it.
-/

import MigrationPlatform.Delivery.CallEndpoint

namespace MigrationPlatform.Delivery

/-- The first sixteen bytes of the hash, in hexadecimal. -/
def shortDigest (sha256Hex : String → String) (text : String) : String :=
  String.ofList ((sha256Hex text).toList.take 32)

def computeIdempotencyKey (sha256Hex : String → String) (jobID rowIndex : Int)
    (step payloadJSON : String) : String :=
  let seed := toString jobID ++ "-" ++ toString rowIndex ++ "-" ++ step ++ "-"
  shortDigest sha256Hex (seed ++ payloadJSON)

/-- What the template fixes about a step, rendered for one row. `hasBody` is
whether the step maps a payload; `mode` is `EffectiveDeliveryMode`. -/
structure StepCall where
  op : OperationRef
  method : String
  hasBody : Bool
  mode : DeliveryMode
  retentionHours : Int := 0
  lookup : Option RenderedLookup := none
deriving DecidableEq, Repr

/-- `renderStepPayload` returns an empty map for a step without a payload. -/
def StepCall.payloadJSON (call : StepCall) (rendered : String) : String :=
  if call.hasBody = true then rendered else "\x7b\x7d"

def StepCall.input (call : StepCall) (sha256Hex : String → String) (rendered : String)
    (resend confirmNotApplied : Bool) : CallEndpointInput :=
  { jobID := call.op.jobID
    rowIndex := call.op.rowIndex
    stepIndex := call.op.stepIndex
    stepName := call.op.stepName
    method := call.method
    payloadJSON := call.payloadJSON rendered
    hasBody := call.hasBody
    idempotencyKey := computeIdempotencyKey sha256Hex call.op.jobID call.op.rowIndex
      call.op.stepName (call.payloadJSON rendered)
    deliveryMode := some call.mode
    retentionHours := call.retentionHours
    lookup := call.lookup
    resend := resend
    confirmNotApplied := confirmNotApplied }

def StepCall.plan (call : StepCall) (sha256Hex : String → String) (rendered : String) :
    AttemptPlan :=
  (call.input sha256Hex rendered false false).plan sha256Hex

theorem StepCall.key_of_digest (call : StepCall) {sha256Hex : String → String}
    {left right : String}
    (collisionFree : sha256Hex left = sha256Hex right → left = right)
    (same : (call.plan sha256Hex left).intent.payloadSHA256 =
      (call.plan sha256Hex right).intent.payloadSHA256) :
    (call.plan sha256Hex left).operationKey = (call.plan sha256Hex right).operationKey := by
  have texts : call.payloadJSON left = call.payloadJSON right := by
    unfold StepCall.payloadJSON
    cases body : call.hasBody with
    | false => rfl
    | true =>
        apply collisionFree
        simpa [StepCall.plan, CallEndpointInput.plan, StepCall.input, payloadDigest,
          StepCall.payloadJSON, body] using same
  simp [StepCall.plan, CallEndpointInput.plan, StepCall.input, texts]

end MigrationPlatform.Delivery
