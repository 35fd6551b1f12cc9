/-
The template language in its three descriptions: the JSON Schema, the types of the
API and the models of the transform worker.

A document is the value that the API holds after parsing. A request is validated
against the schema and then read into the types; a batch of payloads starts with the
model reading the template. `format` only annotates and is left out.
-/

import MigrationPlatform.Foundation.DocumentBindings
import MigrationPlatform.Template.Validate

namespace MigrationPlatform.Bindings

open DocumentBindings
open MigrationPlatform.Template (isNameChar isStepName isJSONPath)

namespace Schema

def nonEmpty (value : String) : Bool := value.length ≥ 1

/-- `^[A-Za-z0-9_.-]{1,128}$` -/
def isSecretName (value : String) : Bool :=
  value.toList.all (fun char => isNameChar char || char == '.' || char == '-') &&
    1 ≤ value.length && value.length ≤ 128

def text : Check := isText (fun _ => true)

def textOfOne : Check := isText nonEmpty

def path : Check := isText isJSONPath

def integer : Check := wholeNumber (fun _ => true)

def valueExpr : Check :=
  anyOf [
    text,
    record true [⟨"$from", true, textOfOne⟩],
    record true [⟨"$literal", true, text⟩],
    record true [⟨"$fromResponse", true, textOfOne⟩, ⟨"path", true, path⟩]]

def exportColumn : Check :=
  record true [
    ⟨"name", true, textOfOne⟩,
    ⟨"$from", false, textOfOne⟩,
    ⟨"$fromResponse", false, textOfOne⟩,
    ⟨"path", false, path⟩]

def lookup : Check :=
  record true [
    ⟨"method", false, oneOf ["GET"]⟩,
    ⟨"url", true, text⟩,
    ⟨"pathParams", false, mapOf valueExpr⟩,
    ⟨"queryParams", false, mapOf valueExpr⟩,
    ⟨"headers", false, mapOf valueExpr⟩,
    ⟨"foundPath", true, path⟩]

def delivery : Check :=
  record true [
    ⟨"mode", true, oneOf ["idempotent", "lookup", "manual"]⟩,
    ⟨"idempotencyRetentionHours", false, wholeNumber (fun hours => 1 ≤ hours ∧ hours ≤ 8760)⟩,
    ⟨"lookup", false, lookup⟩]

def auth : Check :=
  record false [
    ⟨"type", true, oneOf ["bearer", "basic", "api_key", "oauth2_client"]⟩,
    ⟨"secretRef", false, isText isSecretName⟩,
    ⟨"headerName", false, text⟩]

def destination : Check :=
  record true [
    ⟨"type", true, oneOf ["http"]⟩,
    ⟨"method", true, oneOf ["GET", "POST", "PUT", "PATCH", "DELETE"]⟩,
    ⟨"url", true, text⟩,
    ⟨"pathParams", false, mapOf valueExpr⟩,
    ⟨"queryParams", false, mapOf (anyOf [valueExpr, listOf valueExpr (fun _ => true)])⟩,
    ⟨"headers", false, mapOf valueExpr⟩,
    ⟨"auth", false, auth⟩,
    ⟨"idempotencyKey", false, anything⟩,
    ⟨"idempotencyHeader", false, text⟩,
    ⟨"delivery", false, delivery⟩]

def mapping : Check := record true [⟨"payload", true, anyObject⟩]

def step : Check :=
  record true [
    ⟨"name", true, isText isStepName⟩,
    ⟨"description", false, text⟩,
    ⟨"mapping", false, mapping⟩,
    ⟨"destination", true, destination⟩,
    ⟨"onFailure", false, oneOf ["stop", "continue"]⟩]

def sourceField : Check :=
  record true [
    ⟨"name", true, text⟩,
    ⟨"type", true, oneOf ["string", "integer", "number", "boolean", "datetime", "object"]⟩]

def sourceTypes : List String := ["csv", "json", "xml", "salesforce", "watched_prefix"]

def source : Check :=
  record true [
    ⟨"type", true, oneOf sourceTypes⟩,
    ⟨"schema", false, listOf sourceField (fun _ => true)⟩,
    ⟨"options", false, anyObject⟩,
    ⟨"connectorId", false, integer⟩]

def preprocessStep : Check :=
  record true [
    ⟨"id", true, text⟩,
    ⟨"field", true, text⟩,
    ⟨"fn", true, text⟩,
    ⟨"args", false, anyObject⟩,
    ⟨"code", false, text⟩]

def retry : Check :=
  record true [
    ⟨"maxAttempts", false, wholeNumber (fun attempts => 1 ≤ attempts ∧ attempts ≤ 20)⟩,
    ⟨"backoff", false, oneOf ["exponential", "fixed"]⟩,
    ⟨"initialIntervalMs", false, wholeNumber (fun interval => 10 ≤ interval)⟩]

def exportSpec : Check :=
  record true [⟨"columns", false, listOf exportColumn (fun size => size ≤ 64)⟩]

def has (name : String) : Check
  | .object entries => entries.any (fun entry => entry.1 = name)
  | _ => false

def shape : Check := fun json =>
  (has "mapping" json && has "destination" json && !has "steps" json) !=
    (has "steps" json && !(has "mapping" json || has "destination" json))

def ruleTemplateFields : List (DocumentBindings.Field Check) := [
  ⟨"id", true, textOfOne⟩,
  ⟨"version", true, wholeNumber (fun version => 1 ≤ version)⟩,
  ⟨"name", true, textOfOne⟩,
  ⟨"source", true, source⟩,
  ⟨"preprocess", true, listOf preprocessStep (fun _ => true)⟩,
  ⟨"mapping", false, mapping⟩,
  ⟨"destination", false, destination⟩,
  ⟨"steps", false, listOf step (fun size => 1 ≤ size ∧ size ≤ 10)⟩,
  ⟨"retry", false, retry⟩,
  ⟨"concurrency", false, wholeNumber (fun limit => 1 ≤ limit ∧ limit ≤ 512)⟩,
  ⟨"export", false, exportSpec⟩]

def ruleTemplate : Check := fun json => record true ruleTemplateFields json && shape json

end Schema

namespace Types

def u16 : Codec := .integer 0 (2 ^ 16 - 1)

def u32 : Codec := .integer 0 (2 ^ 32 - 1)

def u64 : Codec := .integer 0 (2 ^ 64 - 1)

def i64 : Codec := .integer (-2 ^ 63) (2 ^ 63 - 1)

def sourceTypes : List String := ["csv", "json", "xml", "salesforce", "watchedprefix"]

def fieldTypes : List String := ["string", "integer", "number", "boolean", "datetime", "object"]

def sourceField : Codec :=
  .struct true [⟨"name", true, .text⟩, ⟨"type", true, .names fieldTypes⟩]

def source : Codec :=
  .struct true [
    ⟨"type", true, .names sourceTypes⟩,
    ⟨"schema", false, .list sourceField⟩,
    ⟨"options", false, .value⟩,
    ⟨"connectorId", false, i64⟩]

def preprocessStep : Codec :=
  .struct true [
    ⟨"id", true, .text⟩,
    ⟨"field", true, .text⟩,
    ⟨"fn", true, .text⟩,
    ⟨"args", false, .value⟩,
    ⟨"code", false, .text⟩]

def authTypes : List String := ["bearer", "basic", "api_key", "oauth2_client"]

def auth : Codec :=
  .struct false [
    ⟨"type", true, .names authTypes⟩,
    ⟨"secretRef", false, .text⟩,
    ⟨"headerName", false, .text⟩]

def httpMethods : List String := ["GET", "POST", "PUT", "PATCH", "DELETE"]

def lookup : Codec :=
  .struct true [
    ⟨"method", false, .text⟩,
    ⟨"url", true, .text⟩,
    ⟨"pathParams", false, .map⟩,
    ⟨"queryParams", false, .map⟩,
    ⟨"headers", false, .map⟩,
    ⟨"foundPath", true, .text⟩]

def deliveryModes : List String := ["idempotent", "lookup", "manual"]

def delivery : Codec :=
  .struct true [
    ⟨"mode", true, .names deliveryModes⟩,
    ⟨"idempotencyRetentionHours", false, u32⟩,
    ⟨"lookup", false, lookup⟩]

def destination : Codec :=
  .struct true [
    ⟨"type", true, .text⟩,
    ⟨"method", true, .names httpMethods⟩,
    ⟨"url", true, .text⟩,
    ⟨"pathParams", false, .map⟩,
    ⟨"queryParams", false, .map⟩,
    ⟨"headers", false, .map⟩,
    ⟨"auth", false, auth⟩,
    ⟨"idempotencyKey", false, .value⟩,
    ⟨"idempotencyHeader", false, .text⟩,
    ⟨"delivery", false, delivery⟩]

def backoffKinds : List String := ["exponential", "fixed"]

def retry : Codec :=
  .struct true [
    ⟨"maxAttempts", false, u32⟩,
    ⟨"backoff", false, .names backoffKinds⟩,
    ⟨"initialIntervalMs", false, u64⟩]

def mapping : Codec := .struct true [⟨"payload", true, .map⟩]

def onFailure : List String := ["stop", "continue"]

def step : Codec :=
  .struct true [
    ⟨"name", true, .text⟩,
    ⟨"description", false, .text⟩,
    ⟨"mapping", false, mapping⟩,
    ⟨"destination", true, destination⟩,
    ⟨"onFailure", false, .names onFailure⟩]

/-- The struct of a column alone lets unknown fields pass. -/
def exportColumn : Codec :=
  .struct false [
    ⟨"name", true, .text⟩,
    ⟨"$from", false, .text⟩,
    ⟨"$fromResponse", false, .text⟩,
    ⟨"path", false, .text⟩]

def exportSpec : Codec := .struct true [⟨"columns", false, .list exportColumn⟩]

def ruleTemplate : Codec :=
  .struct true [
    ⟨"id", true, .text⟩,
    ⟨"version", true, u32⟩,
    ⟨"name", true, .text⟩,
    ⟨"source", true, source⟩,
    ⟨"preprocess", true, .list preprocessStep⟩,
    ⟨"mapping", false, mapping⟩,
    ⟨"destination", false, destination⟩,
    ⟨"steps", false, .list step⟩,
    ⟨"retry", false, retry⟩,
    ⟨"concurrency", false, u16⟩,
    ⟨"export", false, exportSpec⟩]

end Types

/-! ### template.py -/

namespace Models

def str : Check := isText (fun _ => true)

def int : Check := modelInteger (fun _ => true)

def dict : Check := anyObject

def sourceTypes : List String := ["csv", "json", "xml", "salesforce", "watched_prefix"]

def sourceField : Check :=
  model true [
    ⟨"name", true, str⟩,
    ⟨"type", true, oneOf ["string", "integer", "number", "boolean", "datetime", "object"]⟩]

def source : Check :=
  model true [
    ⟨"type", true, oneOf sourceTypes⟩,
    ⟨"schema", false, listOf sourceField (fun _ => true)⟩,
    ⟨"options", false, dict⟩,
    ⟨"connectorId", false, int⟩]

def preprocessStep : Check :=
  model true [
    ⟨"id", true, str⟩,
    ⟨"field", true, str⟩,
    ⟨"fn", true, str⟩,
    ⟨"args", false, dict⟩,
    ⟨"code", false, str⟩]

def auth : Check :=
  model false [
    ⟨"type", true, oneOf ["bearer", "basic", "api_key", "oauth2_client"]⟩,
    ⟨"secretRef", false, str⟩,
    ⟨"headerName", false, str⟩]

/-- The model has no delivery policy. -/
def destination : Check :=
  model true [
    ⟨"type", true, oneOf ["http"]⟩,
    ⟨"method", true, oneOf ["GET", "POST", "PUT", "PATCH", "DELETE"]⟩,
    ⟨"url", true, str⟩,
    ⟨"pathParams", false, dict⟩,
    ⟨"queryParams", false, dict⟩,
    ⟨"headers", false, dict⟩,
    ⟨"auth", false, auth⟩,
    ⟨"idempotencyKey", false, anything⟩,
    ⟨"idempotencyHeader", false, str⟩]

def retry : Check :=
  model true [
    ⟨"maxAttempts", false, modelInteger (fun attempts => 1 ≤ attempts ∧ attempts ≤ 20)⟩,
    ⟨"backoff", false, oneOf ["exponential", "fixed"]⟩,
    ⟨"initialIntervalMs", false, modelInteger (fun interval => 10 ≤ interval)⟩]

def mapping : Check := model true [⟨"payload", true, dict⟩]

def step : Check :=
  model true [
    ⟨"name", true, isText isStepName⟩,
    ⟨"description", false, str⟩,
    ⟨"mapping", false, mapping⟩,
    ⟨"destination", true, destination⟩,
    ⟨"onFailure", false, oneOf ["stop", "continue"]⟩]

/-- A column may be given by alias or by name; a document of the schema has no names
of this kind. -/
def exportColumn : Check :=
  model true [
    ⟨"name", true, str⟩,
    ⟨"$from", false, str⟩,
    ⟨"$fromResponse", false, str⟩,
    ⟨"path", false, str⟩]

def exportSpec : Check := model true [⟨"columns", false, listOf exportColumn (fun _ => true)⟩]

def ruleTemplateFields : List (DocumentBindings.Field Check) := [
  ⟨"id", true, str⟩,
  ⟨"version", true, modelInteger (fun version => 1 ≤ version)⟩,
  ⟨"name", true, str⟩,
  ⟨"source", true, source⟩,
  ⟨"preprocess", true, listOf preprocessStep (fun _ => true)⟩,
  ⟨"mapping", false, mapping⟩,
  ⟨"destination", false, destination⟩,
  ⟨"steps", false, listOf step (fun size => 1 ≤ size ∧ size ≤ 10)⟩,
  ⟨"retry", false, retry⟩,
  ⟨"concurrency", false, modelInteger (fun limit => 1 ≤ limit ∧ limit ≤ 512)⟩,
  ⟨"export", false, exportSpec⟩]

/-- The attribute is not `None`. -/
def isSet (name : String) : Check
  | .object entries => entries.any (fun entry => entry.1 = name && !entry.2.isNull)
  | _ => false

def oneShape : Check := fun json =>
  (isSet "mapping" json && isSet "destination" json) != isSet "steps" json

def ruleTemplate : Check := fun json => model true ruleTemplateFields json && oneShape json

end Models

def withinU16 : Clean := literalWithin 0 (2 ^ 16 - 1)

def withinU32 : Clean := literalWithin 0 (2 ^ 32 - 1)

def withinU64 : Clean := literalWithin 0 (2 ^ 64 - 1)

def withinI64 : Clean := literalWithin (-2 ^ 63) (2 ^ 63 - 1)

def notWatchedPrefix : Clean
  | .text type => type ≠ "watched_prefix"
  | _ => True

def cleanSource : Clean := within [("type", notWatchedPrefix), ("connectorId", withinI64)]

def cleanAuth : Clean := nothingElse ["type", "secretRef", "headerName"]

def cleanDestination : Clean := within [("auth", cleanAuth), ("delivery", never)]

def cleanStep : Clean := within [("destination", cleanDestination)]

def cleanRetry : Clean := within [("maxAttempts", withinU32), ("initialIntervalMs", withinU64)]

def CleanTemplate : Clean :=
  within [
    ("version", withinU32),
    ("source", cleanSource),
    ("destination", cleanDestination),
    ("steps", each cleanStep),
    ("retry", cleanRetry),
    ("concurrency", withinU16)]

theorem agree_str (fits : String → Bool) : Agree (isText fits) .text Models.str always :=
  agree_text fits _ (fun _ _ => rfl)

theorem agree_enum (names : List String) :
    Agree (oneOf names) (.names names) (oneOf names) always :=
  agree_sameNames names names names (fun _ known => known) (fun _ known => known)

private theorem anyObject_of_mapOf (value : Check) (json : Json)
    (accepted : mapOf value json = true) :
    anyObject json = true := by
  cases json with
  | object entries => rfl
  | _ => cases accepted

theorem agree_dict (value : Check) : Agree (mapOf value) .map Models.dict always :=
  agree_map (mapOf value) (anyObject_of_mapOf value)

private theorem agree_objectMap : Agree anyObject .map Models.dict always :=
  agree_map anyObject (fun _ object => object)

theorem agree_objectValue : Agree anyObject .value Models.dict always :=
  fun json object => ⟨fun _ => trivial, fun _ => ⟨⟨json, rfl, rfl⟩, object⟩⟩

private theorem agree_sourceType :
    Agree (oneOf Schema.sourceTypes) (.names Types.sourceTypes) (oneOf Models.sourceTypes)
      notWatchedPrefix := by
  refine (agree_names Schema.sourceTypes Types.sourceTypes Models.sourceTypes).congr ?_
  intro json accepted
  cases json with
  | text type =>
      have known : type ∈ Schema.sourceTypes := List.contains_iff_mem.mp accepted
      have all : ∀ type ∈ Schema.sourceTypes,
          (type ∈ Types.sourceTypes ∧ type ∈ Models.sourceTypes) ↔ type ≠ "watched_prefix" := by
        decide
      exact all type known
  | _ => cases accepted

private theorem agree_sourceField :
    Agree Schema.sourceField Types.sourceField Models.sourceField always :=
  agree_freeRecord (agree_record [
    .free "name" true (agree_str _),
    .free "type" true (agree_enum _)] true (by decide))

theorem agree_whole (low high : Int) (fits : Int → Bool) :
    Agree (wholeNumber fits) (.integer low high) (modelInteger fits) (literalWithin low high) :=
  agree_integer low high fits fits (fun _ known => known)

theorem agree_rows {schema check : Check} {codec : Codec} (fits : Nat → Bool)
    (agree : Agree schema codec check always) :
    Agree (listOf schema fits) (.list codec) (listOf check (fun _ => true)) always :=
  agree_freeList fits _ (fun _ _ => rfl) agree

private theorem agree_source : Agree Schema.source Types.source Models.source cleanSource :=
  agree_record [
    .when "type" true agree_sourceType rfl,
    .free "schema" false (agree_rows (fun _ => true) agree_sourceField),
    .free "options" false agree_objectValue,
    .when "connectorId" false (agree_whole (-2 ^ 63) (2 ^ 63 - 1) (fun _ => true)) rfl]
    true (by decide)

private theorem agree_preprocessStep :
    Agree Schema.preprocessStep Types.preprocessStep Models.preprocessStep always :=
  agree_freeRecord (agree_record [
    .free "id" true (agree_str _),
    .free "field" true (agree_str _),
    .free "fn" true (agree_str _),
    .free "args" false agree_objectValue,
    .free "code" false (agree_str _)] true (by decide))

theorem agree_mapping : Agree Schema.mapping Types.mapping Models.mapping always :=
  agree_freeRecord (agree_record [.free "payload" true agree_objectMap] true (by decide))

private theorem agree_auth : Agree Schema.auth Types.auth Models.auth cleanAuth :=
  (agree_openRecord [
    .free "type" true (agree_enum Types.authTypes),
    .free "secretRef" false (agree_str Schema.isSecretName),
    .free "headerName" false (agree_str (fun _ => true))] (by decide) (by decide)).congr
    fun json _ => and_iff_right (within_nil json)

theorem agree_destination :
    Agree Schema.destination Types.destination Models.destination cleanDestination :=
  agree_record [
    .free "type" true (agree_text ["http"].contains ["http"].contains (fun _ fits => fits)),
    .free "method" true (agree_enum Types.httpMethods),
    .free "url" true (agree_str (fun _ => true)),
    .free "pathParams" false (agree_dict Schema.valueExpr),
    .free "queryParams" false
      (agree_dict (anyOf [Schema.valueExpr, listOf Schema.valueExpr (fun _ => true)])),
    .free "headers" false (agree_dict Schema.valueExpr),
    .when "auth" false agree_auth rfl,
    .free "idempotencyKey" false agree_value,
    .free "idempotencyHeader" false (agree_str (fun _ => true)),
    .unmodelled "delivery" false Schema.delivery Types.delivery] true (by decide)

theorem agree_step : Agree Schema.step Types.step Models.step cleanStep :=
  agree_record [
    .free "name" true (agree_text isStepName isStepName (fun _ fits => fits)),
    .free "description" false (agree_str (fun _ => true)),
    .free "mapping" false agree_mapping,
    .when "destination" true agree_destination rfl,
    .free "onFailure" false (agree_enum Types.onFailure)] true (by decide)

private theorem agree_retry : Agree Schema.retry Types.retry Models.retry cleanRetry :=
  agree_record [
    .when "maxAttempts" false
      (agree_whole 0 (2 ^ 32 - 1) (fun attempts => 1 ≤ attempts ∧ attempts ≤ 20)) rfl,
    .free "backoff" false (agree_enum Types.backoffKinds),
    .when "initialIntervalMs" false
      (agree_whole 0 (2 ^ 64 - 1) (fun interval => 10 ≤ interval)) rfl] true (by decide)

private theorem agree_exportColumn :
    Agree Schema.exportColumn Types.exportColumn Models.exportColumn always :=
  agree_freeRecord (agree_record [
    .free "name" true (agree_str Schema.nonEmpty),
    .free "$from" false (agree_str Schema.nonEmpty),
    .free "$fromResponse" false (agree_str Schema.nonEmpty),
    .free "path" false (agree_str isJSONPath)] false (by decide))

private theorem agree_exportSpec :
    Agree Schema.exportSpec Types.exportSpec Models.exportSpec always :=
  agree_freeRecord (agree_record [
    .free "columns" false (agree_rows (fun size => size ≤ 64) agree_exportColumn)]
    true (by decide))

private theorem agree_ruleTemplateFields :
    Agree (record true Schema.ruleTemplateFields) Types.ruleTemplate
      (model true Models.ruleTemplateFields) CleanTemplate :=
  agree_record [
    .free "id" true (agree_str Schema.nonEmpty),
    .when "version" true (agree_whole 0 (2 ^ 32 - 1) (fun version => 1 ≤ version)) rfl,
    .free "name" true (agree_str Schema.nonEmpty),
    .when "source" true agree_source rfl,
    .free "preprocess" true (agree_rows (fun _ => true) agree_preprocessStep),
    .free "mapping" false agree_mapping,
    .when "destination" false agree_destination rfl,
    .when "steps" false
      (agree_list (fun size => 1 ≤ size ∧ size ≤ 10) _ (fun _ fits => fits) agree_step) rfl,
    .when "retry" false agree_retry rfl,
    .when "concurrency" false
      (agree_whole 0 (2 ^ 16 - 1) (fun limit => 1 ≤ limit ∧ limit ≤ 512)) rfl,
    .free "export" false agree_exportSpec] true (by decide)

theorem isSet_eq_has {fields : List (DocumentBindings.Field Check)}
    {field : DocumentBindings.Field Check} (name : String)
    (known : field? fields name = some field) (neverNull : field.content .null = false)
    (json : Json) (accepted : record true fields json = true) :
    Models.isSet name json = Schema.has name json := by
  cases json with
  | object entries =>
      rw [record, Bool.and_eq_true, List.all_eq_true] at accepted
      rw [Models.isSet, Schema.has, Bool.eq_iff_iff, List.any_eq_true, List.any_eq_true]
      constructor
      · rintro ⟨entry, member, set⟩
        exact ⟨entry, member, (Bool.and_eq_true _ _ ▸ set).1⟩
      · rintro ⟨⟨own, value⟩, member, same⟩
        cases of_decide_eq_true same
        refine ⟨_, member, ?_⟩
        have ofField := accepted.2 _ member
        rw [recordEntry, known] at ofField
        cases isNull : value.isNull with
        | true =>
            cases (isNull_iff value).mp isNull
            cases neverNull.symm.trans ofField
        | false => simp
  | _ => cases accepted

private theorem oneShape_of_shape (json : Json)
    (accepted : record true Schema.ruleTemplateFields json = true)
    (shaped : Schema.shape json = true) : Models.oneShape json = true := by
  rw [Models.oneShape, isSet_eq_has "mapping" rfl rfl json accepted,
    isSet_eq_has "destination" rfl rfl json accepted,
    isSet_eq_has "steps" rfl rfl json accepted]
  revert shaped
  rw [Schema.shape]
  cases Schema.has "mapping" json <;> cases Schema.has "destination" json <;>
    cases Schema.has "steps" json <;> decide

theorem agree_ruleTemplate :
    Agree Schema.ruleTemplate Types.ruleTemplate Models.ruleTemplate CleanTemplate := by
  intro json accepted
  rw [Schema.ruleTemplate, Bool.and_eq_true] at accepted
  obtain ⟨ofFields, shaped⟩ := accepted
  rw [← agree_ruleTemplateFields json ofFields, Models.ruleTemplate, Bool.and_eq_true,
    and_iff_left (oneShape_of_shape json ofFields shaped)]

/-! ### The law -/

/-- A document of the schema survives the types of the API and suits the worker. -/
def AllAccept (json : Json) : Prop :=
  Schema.ruleTemplate json = true →
    Types.ruleTemplate.Carries json ∧ Models.ruleTemplate json = true

/-- The bindings agree with the schema on the clean templates and on no others. -/
theorem allAccept_iff (json : Json) :
    AllAccept json ↔ (Schema.ruleTemplate json = true → CleanTemplate json) := by
  constructor
  · intro law accepted
    exact (agree_ruleTemplate json accepted).mp (law accepted)
  · intro clean accepted
    exact (agree_ruleTemplate json accepted).mpr (clean accepted)

/-- A template of one step whose source is a watched prefix and that has a delivery policy. -/
def watchedTemplate : Json :=
  .object [
    ("id", .text "rt_orders"),
    ("version", .number (.integer 1)),
    ("name", .text "Orders"),
    ("source", .object [("type", .text "watched_prefix")]),
    ("preprocess", .list []),
    ("mapping", .object [("payload", .object [])]),
    ("destination", .object [
      ("type", .text "http"),
      ("method", .text "POST"),
      ("url", .text "https://api.example.com/orders"),
      ("delivery", .object [("mode", .text "manual")])])]

/-- The types cannot read it, for the name of the source, nor can the models, for the policy. -/
theorem watched_template_refused :
    Schema.ruleTemplate watchedTemplate = true ∧ Types.ruleTemplate.run watchedTemplate = none ∧
      Models.ruleTemplate watchedTemplate = false ∧ ¬ ∀ json, AllAccept json := by
  have accepted : Schema.ruleTemplate watchedTemplate = true := by decide +kernel
  have refused : Models.ruleTemplate watchedTemplate = false := by decide +kernel
  refine ⟨accepted, ?_, refused, fun all => ?_⟩
  · rfl
  · have checks := (all watchedTemplate accepted).2
    rw [refused] at checks
    cases checks

end MigrationPlatform.Bindings
