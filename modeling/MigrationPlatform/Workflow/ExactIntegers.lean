/-
Integers of a JSON source in the request body.

The connector decodes a record, Temporal carries the row to the workflow and the
payload to `CallEndpoint`, each time as JSON. The first decoding rounds a number to
a `float64`; nothing after it changes the number again.
-/

import MigrationPlatform.Connectors.JsonNumbers
import MigrationPlatform.Template.PyEvaluation

namespace MigrationPlatform.Workflow

open MigrationPlatform.Connectors MigrationPlatform.Template

/-- The template has the expression `{"$from": field}` at a place that no other sigil
stands above. -/
inductive Mapped (field : String) : List Selector → Value → Prop
  | here {fields : Data} (reference : sigil fields = .rowField field) : Mapped field [] (.object fields)
  | name {fields : Data} {key : String} {inner : Value} {place : List Selector}
      (plain : sigil fields = .plain) (held : fields.lookup key = some inner)
      (mapped : Mapped field place inner) : Mapped field (.name key :: place) (.object fields)
  | place {items : List Value} {index : Nat} {inner : Value} {place : List Selector}
      (held : items[index]? = some inner) (mapped : Mapped field place inner) :
      Mapped field (.place index :: place) (.list items)

variable {env : RenderEnv} {ctx : Context}

private theorem renderItems_get {items rendered : List Value}
    (passed : renderItems env ctx items = .ok rendered)
    {index : Nat} {value : Value} (held : items[index]? = some value) :
    ∃ after, renderValue env ctx value = .ok after ∧ rendered[index]? = some after := by
  induction items generalizing rendered index with
  | nil =>
      rw [List.getElem?_nil] at held
      cases held
  | cons item rest ih =>
      unfold renderItems at passed
      split at passed
      · cases passed
      rename_i first firstPassed
      split at passed
      · cases passed
      rename_i later laterPassed
      cases passed
      cases index with
      | zero =>
          cases held
          exact ⟨first, firstPassed, rfl⟩
      | succ index => exact ih laterPassed held

theorem renderFields_lookup {fields rendered : Data} (passed : renderFields env ctx fields = .ok rendered)
    {key : String} {value : Value} (held : fields.lookup key = some value) :
    ∃ after, renderValue env ctx value = .ok after ∧ rendered.lookup key = some after := by
  induction fields generalizing rendered with
  | nil => cases held
  | cons entry rest ih =>
      obtain ⟨own, inner⟩ := entry
      unfold renderFields at passed
      split at passed
      · cases passed
      rename_i first firstPassed
      split at passed
      · cases passed
      rename_i later laterPassed
      cases passed
      rw [List.lookup_cons] at held ⊢
      split at held
      · cases held
        exact ⟨first, firstPassed, rfl⟩
      · exact ih laterPassed held

theorem Mapped.rendered {field : String} {place : List Selector} {expr after : Value}
    (mapped : Mapped field place expr) (passed : renderValue env ctx expr = .ok after) :
    after.locate place = some ((ctx.row.lookup field).getD .null) := by
  induction mapped generalizing after with
  | here reference =>
      unfold renderValue at passed
      rw [reference] at passed
      cases passed
      rfl
  | name plain held mapped ih =>
      unfold renderValue at passed
      rw [plain] at passed
      simp only at passed
      split at passed
      · cases passed
      rename_i rendered fieldsPassed
      cases passed
      obtain ⟨inner, innerPassed, located⟩ := renderFields_lookup fieldsPassed held
      rw [Value.locate, Value.select, located]
      exact ih innerPassed
  | place held mapped ih =>
      unfold renderValue at passed
      split at passed
      · cases passed
      rename_i rendered itemsPassed
      cases passed
      obtain ⟨inner, innerPassed, located⟩ := renderItems_get itemsPassed held
      rw [Value.locate, Value.select, located]
      exact ih innerPassed

section Requests

variable {Content : Type} (fraction : String → Option String) (outOfRange : Data → String)

def transported (data : Data) : Option Data := decodeFields (convertNumber fraction) data

/-- The payload of the request that is made for the record the source stands at, as
`send` marshals it. There is none where a step before it fails. -/
def requestPayload (parser : JsonDecoder Content) (it : JsonIter Content) (env : RenderEnv)
    (responses tpl : Data) : Option Data :=
  match jsonNext (parser.intoAny (convertNumber fraction) outOfRange) it with
  | .row row _ _ =>
      (transported fraction row.data).bind fun data =>
        (renderPayload env { row := data, responses := responses } tpl).toOption.bind
          (transported fraction)
  | _ => none

variable {fraction outOfRange}

theorem requestPayload_some {parser : JsonDecoder Content} {it : JsonIter Content}
    {responses tpl payload : Data}
    (sent : requestPayload fraction outOfRange parser it env responses tpl = some payload) :
    ∃ record rest data row rendered, parser.decode it.dec = .value record rest ∧
      decodeFields (convertNumber fraction) record = some data ∧
      decodeFields (convertNumber fraction) data = some row ∧
      renderPayload env { row := row, responses := responses } tpl = .ok rendered ∧
      decodeFields (convertNumber fraction) rendered = some payload := by
  unfold requestPayload at sent
  split at sent
  · rename_i yielded offset later next
    obtain ⟨fields, rest, decoded, _index, _items, _later⟩ := jsonNext_row next
    have row : yielded.data = fields := by
      unfold jsonNext at next
      rw [decoded] at next
      split at next
      · cases next
      · cases next
        rfl
    obtain ⟨data, carried, made⟩ := Option.bind_eq_some_iff.mp sent
    obtain ⟨rendered, passed, arrived⟩ := Option.bind_eq_some_iff.mp made
    rw [row] at carried
    unfold JsonDecoder.intoAny at decoded
    simp only at decoded
    split at decoded
    · rename_i record behind parsed
      split at decoded
      · rename_i own converted
        cases decoded
        refine ⟨record, rest, fields, data, rendered, parsed, converted, carried, ?_, arrived⟩
        cases result : renderPayload env { row := data, responses := responses } tpl with
        | error problem =>
            rw [result] at passed
            cases passed
        | ok held =>
            rw [result] at passed
            cases passed
            rfl
      · cases decoded
    · cases decoded
    · cases decoded
  · cases sent

theorem requestPayload_number {parser : JsonDecoder Content} {it : JsonIter Content}
    {responses tpl record : Data} {rest : Content} {field key : String} {value expr : Value}
    {path place : List Selector} {negative : Bool} {magnitude : Nat} {payload : Data}
    (parsed : parser.decode it.dec = .value record rest) (held : record.lookup field = some value)
    (literal : value.locate path = some (.number (integerLiteral negative magnitude)))
    (entry : tpl.lookup key = some expr) (mapped : Mapped field place expr)
    (sent : requestPayload fraction outOfRange parser it env responses tpl = some payload) :
    float64 magnitude < float64Limit ∧
      (Value.object payload).locate (.name key :: (place ++ path)) =
        some (.number (floatEncoder negative (float64 magnitude))) := by
  obtain ⟨own, behind, data, row, rendered, parsedOwn, decoded, carried, passed, arrived⟩ :=
    requestPayload_some sent
  rw [parsed] at parsedOwn
  cases parsedOwn
  -- the record, with the literal converted
  obtain ⟨first, firstPassed, inData⟩ := decodeFields_lookup decoded held
  obtain ⟨text, converted, firstNumber⟩ := decodeValue_number firstPassed literal
  rw [convertNumber_literal] at converted
  split at converted
  · rename_i finite
    cases converted
    have again := convertNumber_encoded fraction negative finite
    -- the row, as the workflow has it
    obtain ⟨second, secondPassed, inRow⟩ := decodeFields_lookup carried inData
    obtain ⟨text, converted, secondNumber⟩ := decodeValue_number secondPassed firstNumber
    rw [again] at converted
    cases converted
    -- the payload, before and after it is carried to the activity
    obtain ⟨inner, innerPassed, inRendered⟩ := renderFields_lookup (renderPayload_fields passed) entry
    have there := mapped.rendered innerPassed
    simp only at there
    rw [inRow, Option.getD_some] at there
    have number : inner.locate (place ++ path) =
        some (.number (floatEncoder negative (float64 magnitude))) := by
      rw [Value.locate_append, there]
      exact secondNumber
    obtain ⟨last, lastPassed, inPayload⟩ := decodeFields_lookup arrived inRendered
    obtain ⟨text, converted, lastNumber⟩ := decodeValue_number lastPassed number
    rw [again] at converted
    cases converted
    refine ⟨finite, ?_⟩
    rw [Value.locate, Value.select, inPayload]
    exact lastNumber
  · cases converted

/-- An integer of a record is in the body of the request exactly when it is in the
range of a `float64` and is the decimal that is written for its own. `requested` says
that nothing else of the record or of the payload keeps the request from being made. -/
theorem integer_arrives_iff {parser : JsonDecoder Content} {it : JsonIter Content}
    {responses tpl record : Data} {rest : Content} {field key : String} {value expr : Value}
    {path place : List Selector} {negative : Bool} {magnitude : Nat}
    (parsed : parser.decode it.dec = .value record rest) (held : record.lookup field = some value)
    (literal : value.locate path = some (.number (integerLiteral negative magnitude)))
    (entry : tpl.lookup key = some expr) (mapped : Mapped field place expr)
    (requested : float64 magnitude < float64Limit →
      (requestPayload fraction outOfRange parser it env responses tpl).isSome = true) :
    (∃ payload, requestPayload fraction outOfRange parser it env responses tpl = some payload ∧
      ∃ text, (Value.object payload).locate (.name key :: (place ++ path)) = some (.number text) ∧
        integerOf text = some (signedInteger negative magnitude)) ↔
      float64 magnitude < float64Limit ∧ Exact magnitude := by
  constructor
  · intro arrives
    obtain ⟨payload, sent, text, located, same⟩ := arrives
    obtain ⟨finite, number⟩ := requestPayload_number parsed held literal entry mapped sent
    rw [number] at located
    cases located
    rw [integerOf_encoded] at same
    have exact_ := signedInteger_inj.mp (Option.some.inj same)
    exact ⟨finite, (shortestDigits_eq_iff magnitude).mp exact_⟩
  · intro both
    obtain ⟨payload, sent⟩ := Option.isSome_iff_exists.mp (requested both.1)
    obtain ⟨_finite, number⟩ := requestPayload_number parsed held literal entry mapped sent
    refine ⟨payload, sent, _, number, ?_⟩
    rw [integerOf_encoded, (shortestDigits_eq_iff magnitude).mpr both.2]

end Requests

def idParser (literal : String) : JsonDecoder Unit where
  token _ := .delim '[' ()
  more _ := true
  decode _ := .value [("id", .number literal)] ()

def idTemplate : Data := [("id", .object [("$from", .text "id")])]

theorem idMapped : Mapped "id" [] (.object [("$from", .text "id")]) := .here rfl

theorem idMapping : idTemplate.lookup "id" = some (.object [("$from", .text "id")]) := rfl

theorem idLiteral (literal : String) : (Value.number literal).locate [] = some (.number literal) := rfl

def idPayload (magnitude : Nat) : Option Data :=
  requestPayload wholeOnly (fun _ => "") (idParser (integerLiteral false magnitude)) { dec := () }
    bareEnv [] idTemplate

theorem small_id_arrives :
    ∃ payload, idPayload 42 = some payload ∧
      ∃ text, (Value.object payload).locate [.name "id"] = some (.number text) ∧
        integerOf text = some 42 := by
  have small : 42 < 2 ^ significandBits := by decide
  have finite : float64 42 < float64Limit := by
    have own : float64 42 = 42 :=
      BinaryRounding.roundTo_of_representable significandBits_pos
        (BinaryRounding.representable_of_lt small)
    rw [own]
    exact Nat.lt_trans small significand_lt_limit
  have requested : float64 42 < float64Limit → (idPayload 42).isSome = true := by
    intro _finite
    decide +kernel
  exact (integer_arrives_iff rfl rfl (idLiteral _) idMapping idMapped requested).mpr
    ⟨finite, exact_of_lt small⟩

private theorem not_exact_of_odd : ¬Exact 9007199254740993 := by
  intro exact_
  have rounds : float64 9007199254740993 = 9007199254740992 := by decide +kernel
  have own : float64 9007199254740992 = 9007199254740992 := by
    rw [← rounds, float64_float64]
  rcases exact_ with zero | shortest
  · cases zero
  · rw [rounds] at shortest
    have lastDigit : ∀ j, 10 ^ j ∣ 9007199254740993 → 10 ^ j ∣ 9007199254740992 := by
      intro j multiple
      cases j with
      | zero => exact Nat.one_dvd _
      | succ j =>
          have ten : 10 ∣ 9007199254740993 := Nat.dvd_trans (Nat.dvd_mul_left 10 (10 ^ j)) multiple
          exact absurd ten (by decide)
    have nearest := shortest.closest 9007199254740992 own lastDigit
    exact absurd nearest (by decide)

theorem large_id_changes :
    ¬∃ payload, idPayload 9007199254740993 = some payload ∧
      ∃ text, (Value.object payload).locate [.name "id"] = some (.number text) ∧
        integerOf text = some 9007199254740993 := by
  intro arrives
  obtain ⟨payload, sent, text, located, same⟩ := arrives
  obtain ⟨_finite, number⟩ := requestPayload_number rfl rfl (idLiteral _) idMapping idMapped sent
  have equal : text = floatEncoder false (float64 9007199254740993) := by
    have values := located.symm.trans number
    cases values
    rfl
  rw [equal, integerOf_encoded] at same
  have exact_ := signedInteger_inj.mp (Option.some.inj same)
  exact not_exact_of_odd ((shortestDigits_eq_iff _).mp exact_)

end MigrationPlatform.Workflow
