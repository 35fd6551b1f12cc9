/-
The idempotency key of an executed step and the request that it stands for.

`ComputeIdempotencyKey` hashes the job, the row, the name of the step and the
payload as JSON. Two steps hash the same text exactly when they agree on these
four; the rendered URL does not take part.
-/

import MigrationPlatform.Delivery.StoredAnswers
import MigrationPlatform.Foundation.Decimals
import MigrationPlatform.Foundation.JsonValues
import MigrationPlatform.Template.Validate
import MigrationPlatform.Workflow.ChainResume

namespace MigrationPlatform.Workflow

open MigrationPlatform.Delivery JsonText Utf8 Decimals

/-- A `map[string]any` that came from JSON, with its fields as they are iterated.
A nil map has none. -/
structure Payload where
  fields : Option (List (Bytes × Doc))
  proper : ∀ entries, fields = some entries → (Doc.object entries).Proper

def Payload.doc (payload : Payload) : Doc :=
  match payload.fields with
  | none => .null
  | some entries => .object entries

/-- `json.Marshal` writes the fields of every map in the order of their names. -/
def Payload.json (payload : Payload) : Bytes := payload.doc.sorted.marshal

theorem Payload.doc_proper (payload : Payload) : payload.doc.Proper := by
  unfold Payload.doc
  cases given : payload.fields with
  | none => trivial
  | some entries => exact payload.proper entries given

theorem Payload.json_iff (left right : Payload) :
    left.json = right.json ↔ left.doc.value = right.doc.value :=
  marshal_sorted_iff left.doc_proper right.doc_proper

theorem utf8_inj {left right : String} (same : utf8 left = utf8 right) : left = right := by
  have texts := congrArg runes same
  unfold utf8 at texts
  rw [runes_encode, runes_encode] at texts
  have scalars : Function.Injective Rune.scalar := fun _ _ equal => Rune.scalar.inj equal
  exact String.toList_injective (List.map_injective_iff.mpr scalars texts)

structure ExecutedCall (sha256Hex : String → String) (describe : ActivityError → String) where
  maxAttempts : Nat
  jobID : Int
  rowIndex : Int
  stepIndex : Int
  step : Step
  ctx : RenderContext
  run : RowRun
  env : StepEnv
  execution : StepExecution
  input : CallEndpointInput
  attempts : Attempts
  executed : executeStep sha256Hex describe maxAttempts jobID rowIndex stepIndex step ctx run env =
    some execution
  called : execution.called = some (input, attempts)
  payload : Payload
  text : String
  rendered : (step.render ctx).payload = .ok text
  written : utf8 text = payload.json
  -- a step without a payload template has the empty map
  bodiless : step.hasBody = false → payload.fields = some []
  url : String
  located : (step.render ctx).destination = .ok url

section Keys

variable {sha256Hex : String → String} {describe : ActivityError → String}

def ExecutedCall.keyText (call : ExecutedCall sha256Hex describe) : String :=
  toString call.jobID ++ "-" ++ toString call.rowIndex ++ "-" ++ call.step.name ++ "-" ++ call.text

structure SameOperation (left right : ExecutedCall sha256Hex describe) : Prop where
  job : left.jobID = right.jobID
  row : left.rowIndex = right.rowIndex
  name : left.step.name = right.step.name
  payload : left.payload.doc.value = right.payload.doc.value

structure SameRequest (left right : ExecutedCall sha256Hex describe) : Prop where
  operation : SameOperation left right
  url : left.url = right.url

private theorem ExecutedCall.payloadText (call : ExecutedCall sha256Hex describe)
    (bodiless : call.step.hasBody = false) : call.text = "\x7b\x7d" := by
  apply utf8_inj
  rw [call.written]
  have empty : call.payload.doc = .object [] := by
    unfold Payload.doc
    rw [call.bodiless bodiless]
  rw [Payload.json, empty, Doc.sorted, sortedFields, byName, List.mergeSort_nil, Doc.marshal]
  rfl

theorem ExecutedCall.idempotencyKey (call : ExecutedCall sha256Hex describe) :
    call.input.idempotencyKey = shortDigest sha256Hex call.keyText := by
  have executed := call.executed
  unfold executeStep at executed
  simp only [call.rendered, call.located] at executed
  split at executed
  · have none := congrArg (Option.map StepExecution.called) executed
    rw [Option.map_some, Option.map_some, call.called] at none
    cases none
  · obtain ⟨attempts, _, same⟩ := Option.map_eq_some_iff.mp executed
    have called := congrArg StepExecution.called same
    rw [call.called] at called
    have input := (Prod.mk.inj (Option.some.inj called)).1
    have sent : (if call.step.hasBody = true then call.text else "\x7b\x7d") = call.text := by
      split
      · rfl
      · rename_i bodiless
        rw [call.payloadText (Bool.eq_false_of_not_eq_true bodiless)]
    rw [← input]
    exact congrArg (fun payload => computeIdempotencyKey sha256Hex call.jobID call.rowIndex
      call.step.name payload) sent

theorem ExecutedCall.keyText_toList (call : ExecutedCall sha256Hex describe) :
    call.keyText.toList = (toString call.jobID).toList ++ '-' ::
      ((toString call.rowIndex).toList ++ '-' :: (call.step.name.toList ++ '-' ::
        call.text.toList)) := by
  unfold ExecutedCall.keyText
  simp only [String.toList_append, List.append_assoc]
  rfl

theorem dash_of_isStepName {name : String} (named : Template.isStepName name = true) :
    '-' ∉ name.toList := by
  unfold Template.isStepName at named
  split at named
  · cases named
  · rename_i first rest letters
    rw [letters]
    rw [Bool.and_eq_true, List.all_eq_true] at named
    intro member
    rcases List.mem_cons.mp member with same | later
    · rw [← same] at named
      exact absurd named.1 (by decide)
    · exact absurd (named.2 '-' later) (by decide)

private theorem keyText_iff {left right : ExecutedCall sha256Hex describe}
    (namedLeft : Template.isStepName left.step.name = true)
    (namedRight : Template.isStepName right.step.name = true) :
    left.keyText = right.keyText ↔ SameOperation left right := by
  constructor
  · intro same
    have texts := congrArg String.toList same
    rw [left.keyText_toList, right.keyText_toList] at texts
    obtain ⟨job, afterJob⟩ := toString_inj_append (by decide) texts
    obtain ⟨row, afterRow⟩ := toString_inj_append (by decide) afterJob
    obtain ⟨name, afterName⟩ := append_mark_inj _ (dash_of_isStepName namedLeft)
      (dash_of_isStepName namedRight) afterRow
    refine ⟨job, row, String.toList_injective name, ?_⟩
    rw [← Payload.json_iff, ← left.written, ← right.written, String.toList_injective afterName]
  · intro same
    have payload : left.text = right.text := by
      apply utf8_inj
      rw [left.written, right.written, Payload.json_iff]
      exact same.payload
    unfold ExecutedCall.keyText
    rw [same.job, same.row, same.name, payload]

theorem key_identifies_request_iff (left right : ExecutedCall sha256Hex describe)
    (namedLeft : Template.isStepName left.step.name = true)
    (namedRight : Template.isStepName right.step.name = true)
    (collisionFree : shortDigest sha256Hex left.keyText = shortDigest sha256Hex right.keyText →
      left.keyText = right.keyText) :
    (left.input.idempotencyKey = right.input.idempotencyKey ↔ SameRequest left right) ↔
      (SameOperation left right → left.url = right.url) := by
  have keys : left.input.idempotencyKey = right.input.idempotencyKey ↔ SameOperation left right := by
    rw [left.idempotencyKey, right.idempotencyKey, ← keyText_iff namedLeft namedRight]
    exact ⟨collisionFree, fun same => by rw [same]⟩
  rw [keys]
  constructor
  · intro identifies operation
    exact (identifies.mp operation).url
  · intro located
    exact ⟨fun operation => ⟨operation, located operation⟩, SameRequest.operation⟩

end Keys

def subContact : Step :=
  { name := "contact", method := "POST", hasBody := true, mode := .idempotent
    render := fun ctx =>
      { payload := .ok "\x7b\"n\":1\x7d"
        destination :=
          match ctx.responses.lookup "account" with
          | some id => .ok ("https://api/accounts/" ++ id ++ "/contacts")
          | none => .error "$fromResponse: step \"account\" has not executed" } }

private theorem name_valid : valid (utf8 "n") = true := (valid_iff _).mpr ⟨['n'], rfl⟩

def onePayload : Payload where
  fields := some [(utf8 "n", .number [49])]
  proper := by
    intro entries given
    cases given
    exact ⟨List.nodup_singleton _, name_valid, rfl, trivial⟩

private theorem onePayload_text : utf8 "\x7b\"n\":1\x7d" = onePayload.json := by
  have name : quoted (utf8 "n") = [34, 110, 34] := by
    unfold quoted utf8
    rw [runes_encode]
    rfl
  have doc : onePayload.doc = .object [(utf8 "n", .number [49])] := rfl
  rw [Payload.json, doc, Doc.sorted, sortedFields, sortedFields, byName,
    List.mergeSort_singleton, Doc.sorted, Doc.marshal, name, Doc.marshal, marshalFields]
  rfl

/-- The contact of the account `id`, created at the first attempt of a run that may
be a retry from the start. -/
def contactOf (id : String) (resend : Bool) : ExecutedCall createSha256 describeError where
  maxAttempts := 1
  jobID := 7
  rowIndex := 3
  stepIndex := 1
  step := subContact
  ctx := { row := [], responses := [("account", id)] }
  run := { resend := resend }
  env := { attempts := [answered "run:1:1" none 201] }
  execution := _
  input := _
  attempts := _
  executed := rfl
  called := rfl
  payload := onePayload
  text := "\x7b\"n\":1\x7d"
  rendered := rfl
  written := onePayload_text
  bodiless := fun impossible => nomatch impossible
  url := "https://api/accounts/" ++ id ++ "/contacts"
  located := rfl

/-- A retry from the start that makes the same request has the same key. -/
theorem contact_key_reused :
    (contactOf "12" false).input.idempotencyKey = (contactOf "12" true).input.idempotencyKey ↔
      SameRequest (contactOf "12" false) (contactOf "12" true) :=
  (key_identifies_request_iff (contactOf "12" false) (contactOf "12" true) rfl rfl
    (fun _ => rfl)).mpr (fun _ => rfl)

/-- The retry from the start created the account again, under another id: the
contact of the new account has the key of that of the old one. -/
theorem contact_key_of_other_url :
    Template.isStepName subContact.name = true ∧
      (contactOf "12" false).keyText = (contactOf "13" true).keyText ∧
      (contactOf "12" false).url ≠ (contactOf "13" true).url ∧
      ¬((contactOf "12" false).input.idempotencyKey = (contactOf "13" true).input.idempotencyKey ↔
        SameRequest (contactOf "12" false) (contactOf "13" true)) := by
  have other : (contactOf "12" false).url ≠ (contactOf "13" true).url := by decide
  refine ⟨rfl, rfl, other, ?_⟩
  intro identifies
  exact other (identifies.mp rfl).url

end MigrationPlatform.Workflow
