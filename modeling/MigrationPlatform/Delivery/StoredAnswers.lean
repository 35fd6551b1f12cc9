/-
What the answers of a destination leave in the database.

A body goes into a JSON column as `safeJSON` leaves it and into error texts as
`excerpt` shows it, and `truncateErr` shortens the errors of batches. The
database takes whole characters without NUL as text, and JSON in whole characters
whose escapes stand for characters other than NUL. `recorded_iff` says for which
bodies and error texts every statement can be stored.

Keys of rows, attempts and operations do not depend on an answer and are left out.
-/

import MigrationPlatform.Batch.Manifest
import MigrationPlatform.Delivery.CallEndpoint
import MigrationPlatform.Foundation.Decimals
import MigrationPlatform.Foundation.JsonText
import MigrationPlatform.Foundation.Trimming

namespace MigrationPlatform.Delivery

open JsonText Utf8

def utf8 (text : String) : Bytes := encode text.toList

def spaceRune : Rune → Bool
  | .scalar char => Batch.isSpaceRune char
  | .invalid _ => false

def bytesOf (text : List Rune) : Bytes := text.flatMap Rune.bytes

def trimSpaceBytes (raw : Bytes) : Bytes := bytesOf (Trimming.trim spaceRune (runes raw))

def maxNestingDepth : Nat := 10000

def jsonValid (bytes : Bytes) : Bool := accepts (some maxNestingDepth) bytes

def safeJSON (raw : Bytes) : Bytes :=
  let trimmed := trimSpaceBytes raw
  if trimmed = [] then nullText
  else if jsonValid trimmed then trimmed
  else quoted trimmed

def fieldsOf (raw : Bytes) : List (List Rune) :=
  ((runes raw).splitOnP spaceRune).filter (fun field => field ≠ [])

def collapsed (raw : Bytes) : Bytes := [32].intercalate ((fieldsOf raw).map bytesOf)

def ellipsis : Bytes := utf8 "…"

def excerpt (raw : Bytes) (max : Nat) : Bytes :=
  let text := collapsed raw
  if max < text.length then text.take max ++ ellipsis
  else if text = [] then utf8 "(empty body)"
  else text

def truncateErr (text : Bytes) (n : Nat) : Bytes :=
  if text.length ≤ n then text else text.take n ++ ellipsis

def nullIfEmpty (text : Bytes) : Option Bytes := if text = [] then none else some text

def nullIfNoJSON (json : Bytes) : Option Bytes :=
  if json = [] ∨ json = nullText ∨ json = [123, 125] then none else some json

def statusText (status : Nat) : Bytes := utf8 ("status " ++ toString status ++ ": ")

def describeAnswer (status : Nat) (raw : Bytes) : Bytes := statusText status ++ excerpt raw 300

def answerBranch (status : Nat) : Completion := classify { status := status, wrote := true }

def manualSuffix : Bytes :=
  utf8 "; the destination has no deduplication or lookup policy, so it is not re-sent"

def unknownError (mode : DeliveryMode) (description : Bytes) : Bytes :=
  utf8 "outcome unknown: " ++ description ++ if mode = .manual then manualSuffix else []

def answerError (mode : DeliveryMode) (status : Nat) (raw : Bytes) : Bytes :=
  match answerBranch status with
  | .succeeded _ => []
  | .unknown _ => unknownError mode (describeAnswer status raw)
  | _ => describeAnswer status raw

def answerReceipt (status : Nat) (raw : Bytes) : Bytes :=
  match answerBranch status with
  | .succeeded _ => safeJSON raw
  | _ => []

def lookupFailure (message : Bytes) : Bytes := utf8 "lookup before re-send failed: " ++ message

/-- A map that came from JSON, so that its numbers are numbers of JSON. A nil map
has no fields. -/
structure JsonMap where
  fields : Option (List (Bytes × Doc))
  numbered : ∀ entries, fields = some entries → numberedFields entries = true

def JsonMap.marshal (map : JsonMap) : Bytes :=
  match map.fields with
  | none => nullText
  | some entries => (Doc.object entries).marshal

def JsonMap.nulFree (map : JsonMap) : Bool :=
  match map.fields with
  | none => true
  | some entries => nulFreeFields entries

structure OutcomeInput where
  lastError : Bytes
  row : JsonMap
  payload : JsonMap
  response : Bytes

structure StepOutcomeInput where
  stepName : Bytes
  requestURL : Bytes
  request : JsonMap
  response : Bytes
  lastError : Bytes

/-- The calls that record how something ended. `parsed` is what `oj.Parse` and the
path make of the body of a lookup; where there was no answer, the message is that
of the transport. -/
inductive Recording
  | answer (mode : DeliveryMode) (status : Nat) (raw : Bytes)
  | noAnswer (mode : DeliveryMode) (wrote : Bool) (message : Bytes)
  | noLookup (message : Bytes)
  | lookup (status : Nat) (raw : Bytes) (parsed : Except Bytes Bool)
  | persistOutcome (input : OutcomeInput)
  | persistStepOutcome (input : StepOutcomeInput)
  | finalizeBatchStage (error : Bytes)
  | quarantineArchive (bucket qKey reason : Bytes)

/-- The parameters of the statements that are stored as text and as JSON. -/
structure Parameters where
  texts : List Bytes := []
  jsons : List Bytes := []

/-- The reference to the quarantined package; a map is written in the order of its
keys. -/
def quarantineRef (bucket qKey reason : Bytes) : Doc :=
  .object [(utf8 "bucket", .text bucket), (utf8 "key", .text qKey), (utf8 "reason", .text reason),
    (utf8 "type", .text (utf8 "minio"))]

def Recording.parameters : Recording → Parameters
  | .answer mode status raw =>
      { texts := (nullIfEmpty (answerError mode status raw)).toList
        jsons := (nullIfNoJSON (answerReceipt status raw)).toList }
  | .noAnswer mode wrote message =>
      { texts := (nullIfEmpty (if wrote then unknownError mode message else message)).toList }
  | .noLookup message => { texts := [lookupFailure message] }
  | .lookup status raw parsed =>
      if status = 404 then {}
      else if status < 200 ∨ 300 ≤ status then
        { texts := [lookupFailure (utf8 ("lookup status " ++ toString status ++ ": ") ++
            excerpt raw 200)] }
      else
        match parsed with
        | .error message =>
            { texts := [lookupFailure (utf8 "lookup response is not JSON: " ++ message)] }
        | .ok true => { jsons := (nullIfNoJSON (safeJSON raw)).toList }
        | .ok false => {}
  | .persistOutcome input =>
      { texts := (nullIfEmpty input.lastError).toList
        jsons := (nullIfNoJSON input.row.marshal).toList ++
          [input.payload.marshal, safeJSON input.response] }
  | .persistStepOutcome input =>
      { texts := input.stepName ::
          ((nullIfEmpty input.requestURL).toList ++ (nullIfEmpty input.lastError).toList)
        jsons := [input.request.marshal, safeJSON input.response] }
  | .finalizeBatchStage error => { texts := [truncateErr error 2000] }
  | .quarantineArchive bucket qKey reason =>
      { texts := [truncateErr reason 2000]
        jsons := [(quarantineRef bucket qKey reason).marshal] }

def textStorable (text : Bytes) : Bool := valid text && !text.contains 0

def jsonbStorable (json : Bytes) : Bool := accepts none json && valid json && escapesFine json

def Parameters.storable (parameters : Parameters) : Bool :=
  parameters.texts.all textStorable && parameters.jsons.all jsonbStorable

def asText (bytes : Bytes) : String :=
  String.ofList ((runes bytes).map fun rune =>
    match rune with
    | .scalar char => char
    | .invalid _ => Char.ofNat 0xFFFD)

def answerResult (status : Nat) (raw : Bytes) : SendResult :=
  { status := status
    body := asText (safeJSON raw)
    preview := asText (excerpt raw 300)
    wrote := true }

/-- The row of the operation after `finish`. The transaction of a statement that
is refused leaves it as it is, every time it is tried. -/
def finishAnswer (row : OperationRow) (attempt : AttemptId) (mode : DeliveryMode) (status : Nat)
    (raw : Bytes) : OperationRow :=
  if (Recording.answer mode status raw).parameters.storable then
    (finishRow (some row) attempt ((classify (answerResult status raw)).finishInput mode)).getD row
  else row

/-- Nothing is lost for what it says: every parameter can be stored, and the
answer of a lease holder that succeeded leaves the operation succeeded. -/
structure Recording.Recorded (recording : Recording) : Prop where
  stored : recording.parameters.storable = true
  succeeds : ∀ mode status raw, recording = .answer mode status raw → 200 ≤ status → status < 300 →
    ∀ row attempt, row.leaseAttempt = some attempt →
      (finishAnswer row attempt mode status raw).state = .succeeded

/-- A JSON body is whole characters without the escape of NUL or a lone surrogate,
another body has no NUL byte. -/
def CleanBody (raw : Bytes) : Prop :=
  let trimmed := trimSpaceBytes raw
  trimmed = [] ∨
    if jsonValid trimmed then valid trimmed = true ∧ escapesFine trimmed = true
    else 0 ∉ trimmed

/-- What is shown of a text of limited length is whole characters without NUL. -/
def CleanCut (text : Bytes) (max : Nat) : Prop :=
  valid (text.take max) = true ∧ 0 ∉ text.take max

def CleanText (text : Bytes) : Prop := valid text = true ∧ 0 ∉ text

def Recording.Clean : Recording → Prop
  | .answer _ status raw =>
      if 200 ≤ status ∧ status < 300 then CleanBody raw else CleanCut (collapsed raw) 300
  | .noAnswer _ _ message => CleanText message
  | .noLookup message => CleanText message
  | .lookup status raw parsed =>
      status = 404 ∨
        if status < 200 ∨ 300 ≤ status then CleanCut (collapsed raw) 200
        else
          match parsed with
          | .error message => CleanText message
          | .ok true => CleanBody raw
          | .ok false => True
  | .persistOutcome input =>
      CleanText input.lastError ∧ input.row.nulFree = true ∧ input.payload.nulFree = true ∧
        CleanBody input.response
  | .persistStepOutcome input =>
      CleanText input.stepName ∧ CleanText input.requestURL ∧ CleanText input.lastError ∧
        input.request.nulFree = true ∧ CleanBody input.response
  | .finalizeBatchStage error => CleanCut error 2000
  | .quarantineArchive bucket qKey reason =>
      CleanCut reason 2000 ∧ 0 ∉ bucket ∧ 0 ∉ qKey ∧ 0 ∉ reason

/-! ### Texts -/

theorem textStorable_iff (text : Bytes) : textStorable text = true ↔ CleanText text := by
  simp [textStorable, CleanText]

theorem zero_mem_utf8 (text : String) : 0 ∈ utf8 text ↔ Char.ofNat 0 ∈ text.toList := by
  rw [utf8, zero_mem_iff, runes_encode, List.mem_map]
  constructor
  · rintro ⟨char, member, same⟩
    cases same
    exact member
  · exact fun member => ⟨_, member, rfl⟩

theorem cleanText_after {text : String} (plain : Char.ofNat 0 ∉ text.toList) (value : Bytes) :
    CleanText (utf8 text ++ value) ↔ CleanText value := by
  have whole : valid (utf8 text) = true := (valid_iff _).mpr ⟨_, rfl⟩
  rw [CleanText, CleanText, valid_append_of_valid whole, List.mem_append, zero_mem_utf8]
  simp [plain]

theorem cleanText_before {text : String} (plain : Char.ofNat 0 ∉ text.toList) (value : Bytes) :
    CleanText (value ++ utf8 text) ↔ CleanText value := by
  have same : valid (value ++ utf8 text) = valid value := valid_append_encode value text.toList
  rw [CleanText, CleanText, same, List.mem_append, zero_mem_utf8]
  simp [plain]

theorem cleanText_nil : CleanText [] := ⟨rfl, List.not_mem_nil⟩

theorem cleanText_excerpt (raw : Bytes) (max : Nat) :
    CleanText (excerpt raw max) ↔ CleanCut (collapsed raw) max := by
  unfold excerpt
  dsimp only
  split
  · exact cleanText_before (by decide) _
  · rename_i short
    rw [CleanCut, List.take_of_length_le (Nat.not_lt.mp short)]
    split
    · rename_i empty
      rw [empty]
      exact iff_of_true ⟨by decide +kernel, by decide +kernel⟩ cleanText_nil
    · exact Iff.rfl

theorem cleanText_truncateErr (text : Bytes) (n : Nat) :
    CleanText (truncateErr text n) ↔ CleanCut text n := by
  unfold truncateErr
  split
  · rename_i short
    rw [CleanCut, List.take_of_length_le short]
    exact Iff.rfl
  · exact cleanText_before (by decide) _

theorem zero_not_mem_status (before : String) (status : Nat)
    (plain : Char.ofNat 0 ∉ before.toList) :
    Char.ofNat 0 ∉ (before ++ toString status ++ ": ").toList := by
  rw [String.toList_append, String.toList_append, List.mem_append, List.mem_append, not_or, not_or]
  exact ⟨⟨plain, Decimals.not_mem_digits (by decide) status⟩, by decide⟩

theorem cleanText_describe (status : Nat) (raw : Bytes) :
    CleanText (describeAnswer status raw) ↔ CleanCut (collapsed raw) 300 := by
  rw [describeAnswer, statusText, cleanText_after (zero_not_mem_status "status " status (by decide))]
  exact cleanText_excerpt raw 300

theorem cleanText_unknownError (mode : DeliveryMode) (description : Bytes) :
    CleanText (unknownError mode description) ↔ CleanText description := by
  unfold unknownError
  split
  · rw [manualSuffix, cleanText_before (by decide), cleanText_after (by decide)]
  · rw [List.append_nil, cleanText_after (by decide)]

theorem all_nullIfEmpty (text : Bytes) :
    (nullIfEmpty text).toList.all textStorable = true ↔ CleanText text := by
  unfold nullIfEmpty
  split
  · rename_i empty
    rw [empty]
    exact iff_of_true rfl cleanText_nil
  · rw [Option.toList_some, List.all_cons, List.all_nil, Bool.and_true]
    exact textStorable_iff text

theorem utf8_asText {bytes : Bytes} (whole : valid bytes = true) : utf8 (asText bytes) = bytes := by
  obtain ⟨chars, rfl⟩ := (valid_iff bytes).mp whole
  rw [asText, runes_encode, utf8, String.toList_ofList, List.map_map]
  exact congrArg encode (List.map_id chars)

theorem classify_answered {result : SendResult} (answered : result.err = none) :
    classify result =
      if result.status = 429 then .notSent result
      else if 200 ≤ result.status ∧ result.status < 300 then .succeeded result
      else if 400 ≤ result.status ∧ result.status < 500 ∧ result.status ≠ 408 then .rejected result
      else .unknown result := by
  simp [classify, answered]

private theorem jsonbStorable_quoted (bytes : Bytes) :
    jsonbStorable (quoted bytes) = true ↔ 0 ∉ bytes := by
  have marshalled : (Doc.text bytes).marshal = quoted bytes := by rw [Doc.marshal]
  have fine : escapesFine (quoted bytes) = !bytes.contains 0 := by
    rw [← marshalled, escapesFine_marshal (by rw [Doc.numbered]), Doc.nulFree]
  have accepted : accepts none (quoted bytes) = true := by
    rw [← marshalled]
    exact accepts_marshal (by rw [Doc.numbered])
  rw [jsonbStorable, accepted, valid_quoted, fine]
  simp

theorem jsonbStorable_null : jsonbStorable nullText = true := by
  have marshalled : Doc.null.marshal = nullText := by rw [Doc.marshal]
  rw [← marshalled, jsonbStorable, accepts_marshal (by rw [Doc.numbered]),
    valid_marshal .null (by rw [Doc.numbered]), escapesFine_marshal (by rw [Doc.numbered]), Doc.nulFree]
  rfl

theorem jsonbStorable_safeJSON (raw : Bytes) :
    jsonbStorable (safeJSON raw) = true ↔ CleanBody raw := by
  unfold safeJSON CleanBody
  dsimp only
  by_cases empty : trimSpaceBytes raw = []
  · rw [if_pos empty]
    exact iff_of_true jsonbStorable_null (Or.inl empty)
  · rw [if_neg empty]
    by_cases json : jsonValid (trimSpaceBytes raw) = true
    · rw [if_pos json, if_pos json, jsonbStorable, accepts_of_limit json, Bool.true_and,
        Bool.and_eq_true]
      exact (or_iff_right empty).symm
    · rw [if_neg json, if_neg json, jsonbStorable_quoted]
      exact (or_iff_right empty).symm

theorem JsonMap.storable_iff (map : JsonMap) :
    jsonbStorable map.marshal = true ↔ map.nulFree = true := by
  unfold JsonMap.marshal JsonMap.nulFree
  cases shape : map.fields with
  | none => exact iff_of_true jsonbStorable_null rfl
  | some entries =>
      have numbered : (Doc.object entries).numbered = true := by
        rw [Doc.numbered]
        exact map.numbered entries shape
      dsimp only
      rw [jsonbStorable, accepts_marshal numbered, valid_marshal _ numbered,
        escapesFine_marshal numbered, Doc.nulFree]
      rfl

theorem all_nullIfNoJSON {json : Bytes} (nonempty : json ≠ []) :
    (nullIfNoJSON json).toList.all jsonbStorable = true ↔ jsonbStorable json = true := by
  unfold nullIfNoJSON
  split
  · rename_i dropped
    refine iff_of_true rfl ?_
    obtain empty | rfl | rfl := dropped
    · exact absurd empty nonempty
    · exact jsonbStorable_null
    · decide +kernel
  · rw [Option.toList_some, List.all_cons, List.all_nil, Bool.and_true]

theorem safeJSON_ne_nil (raw : Bytes) : safeJSON raw ≠ [] := by
  unfold safeJSON
  dsimp only
  split
  · exact List.cons_ne_nil _ _
  · rename_i nonempty
    split
    · exact nonempty
    · rw [quoted]
      exact List.cons_ne_nil _ _

private theorem JsonMap.marshal_ne_nil (map : JsonMap) : map.marshal ≠ [] := by
  unfold JsonMap.marshal
  split
  · exact List.cons_ne_nil _ _
  · rename_i entries shape
    have numbered : (Doc.object entries).numbered = true := by
      rw [Doc.numbered]
      exact map.numbered entries shape
    obtain ⟨byte, rest, begins, _⟩ := marshal_begins _ numbered
    rw [begins]
    exact List.cons_ne_nil _ _

private theorem quarantineRef_storable (bucket qKey reason : Bytes) :
    jsonbStorable (quarantineRef bucket qKey reason).marshal = true ↔
      0 ∉ bucket ∧ 0 ∉ qKey ∧ 0 ∉ reason := by
  have numbered : (quarantineRef bucket qKey reason).numbered = true := by
    rw [quarantineRef]
    simp only [Doc.numbered, numberedFields, Bool.and_true]
  rw [jsonbStorable, accepts_marshal numbered, valid_marshal _ numbered, escapesFine_marshal numbered,
    quarantineRef]
  have words : ∀ word ∈ ["bucket", "key", "reason", "type", "minio"], (utf8 word).contains 0 = false := by
    decide +kernel
  simp only [List.mem_cons, List.not_mem_nil, or_false, forall_eq_or_imp, forall_eq] at words
  obtain ⟨one, two, three, four, five⟩ := words
  simp only [Doc.nulFree, nulFreeFields, one, two, three, four, five]
  simp

/-! ### The law -/

theorem answerBranch_success {status : Nat} (success : 200 ≤ status ∧ status < 300) :
    answerBranch status = .succeeded { status := status, wrote := true } := by
  have notLimited : status ≠ 429 := by omega
  rw [answerBranch, classify_answered rfl, if_neg notLimited, if_pos success]

theorem answerBranch_failure {status : Nat} (failure : ¬(200 ≤ status ∧ status < 300)) :
    ∀ result, answerBranch status ≠ .succeeded result := by
  intro result same
  exact failure (classify_succeeded same).2

private theorem cleanText_answerError (mode : DeliveryMode) {status : Nat} (raw : Bytes)
    (failure : ¬(200 ≤ status ∧ status < 300)) :
    CleanText (answerError mode status raw) ↔ CleanCut (collapsed raw) 300 := by
  unfold answerError
  split
  · rename_i result same
    exact absurd same (answerBranch_failure failure result)
  · rw [cleanText_unknownError]
    exact cleanText_describe status raw
  · exact cleanText_describe status raw

theorem Recording.storable_iff (recording : Recording) :
    recording.parameters.storable = true ↔ recording.Clean := by
  cases recording with
  | answer mode status raw =>
      rw [Recording.parameters, Parameters.storable, Bool.and_eq_true, all_nullIfEmpty,
        Recording.Clean]
      by_cases success : 200 ≤ status ∧ status < 300
      · have error : answerError mode status raw = [] := by
          rw [answerError, answerBranch_success success]
        have receipt : answerReceipt status raw = safeJSON raw := by
          rw [answerReceipt, answerBranch_success success]
        rw [if_pos success, error, receipt, all_nullIfNoJSON (safeJSON_ne_nil raw),
          jsonbStorable_safeJSON]
        exact and_iff_right cleanText_nil
      · have receipt : answerReceipt status raw = [] := by
          unfold answerReceipt
          split
          · rename_i result same
            exact absurd same (answerBranch_failure success result)
          · rfl
        rw [if_neg success, receipt, cleanText_answerError mode raw success]
        exact and_iff_left rfl
  | noAnswer mode wrote message =>
      rw [Recording.parameters, Parameters.storable, Bool.and_eq_true, all_nullIfEmpty,
        Recording.Clean]
      cases wrote with
      | true =>
          rw [if_pos rfl, cleanText_unknownError]
          exact and_iff_left rfl
      | false => exact and_iff_left rfl
  | noLookup message =>
      simp only [Recording.parameters, Parameters.storable, List.all_cons, List.all_nil,
        Bool.and_true, textStorable_iff, Recording.Clean, lookupFailure]
      exact cleanText_after (by decide) message
  | lookup status raw parsed =>
      rw [Recording.Clean.eq_def]
      dsimp only
      by_cases missing : status = 404
      · simp only [Recording.parameters, if_pos missing]
        exact iff_of_true rfl (Or.inl missing)
      · rw [or_iff_right missing, Recording.parameters.eq_def]
        dsimp only
        rw [if_neg missing]
        by_cases failure : status < 200 ∨ 300 ≤ status
        · rw [if_pos failure, if_pos failure]
          simp only [Parameters.storable, List.all_cons, List.all_nil, Bool.and_true,
            textStorable_iff, lookupFailure]
          rw [cleanText_after (by decide),
            cleanText_after (zero_not_mem_status "lookup status " status (by decide))]
          exact cleanText_excerpt raw 200
        · rw [if_neg failure, if_neg failure]
          cases parsed with
          | error message =>
              simp only [Parameters.storable, List.all_cons, List.all_nil, Bool.and_true,
                textStorable_iff, lookupFailure]
              rw [cleanText_after (by decide), cleanText_after (by decide)]
          | ok hit =>
              cases hit with
              | false => exact iff_of_true rfl trivial
              | true =>
                  simp only [Parameters.storable, List.all_nil, Bool.true_and]
                  rw [all_nullIfNoJSON (safeJSON_ne_nil raw), jsonbStorable_safeJSON]
  | persistOutcome input =>
      simp only [Recording.parameters, Parameters.storable, Bool.and_eq_true, List.all_append,
        List.all_cons, List.all_nil, and_true, all_nullIfEmpty, JsonMap.storable_iff,
        all_nullIfNoJSON input.row.marshal_ne_nil, jsonbStorable_safeJSON, Recording.Clean]
  | persistStepOutcome input =>
      simp only [Recording.parameters, Parameters.storable, Bool.and_eq_true, List.all_append,
        List.all_cons, List.all_nil, and_true, all_nullIfEmpty, textStorable_iff,
        JsonMap.storable_iff, jsonbStorable_safeJSON, Recording.Clean, and_assoc]
  | finalizeBatchStage error =>
      simp only [Recording.parameters, Parameters.storable, List.all_cons, List.all_nil,
        Bool.and_true, textStorable_iff, cleanText_truncateErr, Recording.Clean]
  | quarantineArchive bucket qKey reason =>
      simp only [Recording.parameters, Parameters.storable, List.all_cons, List.all_nil,
        Bool.and_true, Bool.and_eq_true, textStorable_iff, cleanText_truncateErr,
        quarantineRef_storable, Recording.Clean]

private theorem finishAnswer_succeeded {row : OperationRow} {attempt : AttemptId}
    {mode : DeliveryMode}
    {status : Nat} {raw : Bytes} (held : row.leaseAttempt = some attempt)
    (success : 200 ≤ status ∧ status < 300)
    (storable : (Recording.answer mode status raw).parameters.storable = true) :
    (finishAnswer row attempt mode status raw).state = .succeeded := by
  have notLimited : status ≠ 429 := by omega
  have branch : classify (answerResult status raw) = .succeeded (answerResult status raw) := by
    rw [classify_answered rfl]
    exact (if_neg notLimited).trans (if_pos success)
  rw [finishAnswer, if_pos storable, branch, finishRow, if_pos held]
  rfl

theorem recorded_iff (recording : Recording) : recording.Recorded ↔ recording.Clean := by
  rw [← Recording.storable_iff]
  constructor
  · exact Recording.Recorded.stored
  · intro storable
    refine ⟨storable, ?_⟩
    rintro mode status raw rfl atLeast below row attempt held
    exact finishAnswer_succeeded held ⟨atLeast, below⟩ storable

def nulBody : Bytes := [34, 92, 117, 48, 48, 48, 48, 34]

theorem nul_answer_lost : ¬(Recording.answer .idempotent 200 nulBody).Recorded := by
  intro recorded
  exact absurd recorded.stored (by decide +kernel)

end MigrationPlatform.Delivery
