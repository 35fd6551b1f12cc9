/-
The checks that a rule template passes before it is stored.

The schema fixes the shape of a template. What it cannot express is checked on
the typed template: step names are unique, a `$fromResponse` names an earlier
step, and the runtime can carry out each destination. References are collected
from the payload and from the destination as it is serialized.
-/

import MigrationPlatform.Template.Render

namespace MigrationPlatform.Template

open MigrationPlatform.Connectors

structure RuleTemplate where
  mapping : Option Data := none
  destination : Option Destination := none
  steps : Option (List Step) := none

def isNameChar (c : Char) : Bool := isNameStart c || c.isDigit

/-- `^[A-Za-z_][A-Za-z0-9_]*$` -/
def isStepName (name : String) : Bool :=
  match name.toList with
  | [] => false
  | first :: rest => isNameStart first && rest.all isNameChar

def isJSONPath (path : String) : Bool := path.toList.head? == some '$'

def isResponseReference (fields : Data) : Bool :=
  fields.length == 2 &&
    match fields.lookup "$fromResponse", fields.lookup "path" with
    | some (.text step), some (.text path) => step != "" && isJSONPath path
    | _, _ => false

def isValueExpr : Value → Bool
  | .text _ => true
  | .object [("$from", .text field)] => field != ""
  | .object [("$literal", .text _)] => true
  | .object fields => isResponseReference fields
  | _ => false

def isQueryExpr : Value → Bool
  | .list items => items.all isValueExpr
  | expr => isValueExpr expr

def paramsFit (fits : Value → Bool) (params : Option Data) : Bool :=
  (params.getD []).all (fun entry => fits entry.2)

def isSecretName (name : String) : Bool :=
  name.toList.all (fun c => c.isAlphanum || c == '_' || c == '.' || c == '-') &&
    1 ≤ name.length && name.length ≤ 128

def Auth.fitsSchema (auth : Auth) : Bool :=
  ["bearer", "basic", "api_key", "oauth2_client"].contains auth.type &&
    auth.secretRef.all isSecretName

def Lookup.fitsSchema (lookup : Lookup) : Bool :=
  lookup.method.all (fun method => method == "GET") &&
    paramsFit isValueExpr lookup.pathParams && paramsFit isValueExpr lookup.queryParams &&
    paramsFit isValueExpr lookup.headers && isJSONPath lookup.foundPath

def Delivery.fitsSchema (delivery : Delivery) : Bool :=
  delivery.idempotencyRetentionHours.all (fun hours => 1 ≤ hours && hours ≤ 8760) &&
    delivery.lookup.all Lookup.fitsSchema

def Destination.fitsSchema (d : Destination) : Bool :=
  d.type == "http" && ["GET", "POST", "PUT", "PATCH", "DELETE"].contains d.method &&
    paramsFit isValueExpr d.pathParams && paramsFit isQueryExpr d.queryParams &&
    paramsFit isValueExpr d.headers && d.auth.all Auth.fitsSchema &&
    d.delivery.all Delivery.fitsSchema

def Step.fitsSchema (step : Step) : Bool :=
  isStepName step.name && step.destination.fitsSchema

/-- Exactly one of the two shapes: a mapping with its destination, or steps. -/
def RuleTemplate.fitsSchema (tpl : RuleTemplate) : Bool :=
  match tpl.mapping, tpl.destination, tpl.steps with
  | some _, some destination, none => destination.fitsSchema
  | none, none, some steps =>
      1 ≤ steps.length && steps.length ≤ 10 && steps.all Step.fitsSchema
  | _, _, _ => false

def mainStep (mapping : Option Data) (destination : Destination) : Step :=
  { name := "main", mapping := mapping, destination := destination }

def RuleTemplate.executionSteps (tpl : RuleTemplate) : List Step :=
  match tpl.steps with
  | some steps => steps
  | none =>
      match tpl.mapping, tpl.destination with
      | some mapping, some destination => [mainStep (some mapping) destination]
      | _, _ => []

/-- `ExecutionSteps`, as the orchestrator has it: what is absent is Go's zero
value. -/
def RuleTemplate.orchestratorSteps (tpl : RuleTemplate) : List Step :=
  if 0 < (tpl.steps.getD []).length then tpl.steps.getD []
  else [mainStep tpl.mapping (tpl.destination.getD { type := "", method := "", url := "" })]

def optionalField (key : String) (value : Option Value) : Data :=
  (value.map (fun present => (key, present))).toList

def Auth.toValue (auth : Auth) : Value :=
  .object (optionalField "headerName" (auth.headerName.map .text) ++
    optionalField "secretRef" (auth.secretRef.map .text) ++ [("type", .text auth.type)])

def Lookup.toValue (lookup : Lookup) : Value :=
  .object ([("foundPath", .text lookup.foundPath)] ++
    optionalField "headers" (lookup.headers.map .object) ++
    optionalField "method" (lookup.method.map .text) ++
    optionalField "pathParams" (lookup.pathParams.map .object) ++
    optionalField "queryParams" (lookup.queryParams.map .object) ++ [("url", .text lookup.url)])

def DeliveryMode.name : DeliveryMode → String
  | .idempotent => "idempotent"
  | .lookup => "lookup"
  | .manual => "manual"

def Delivery.toValue (delivery : Delivery) : Value :=
  .object (optionalField "idempotencyRetentionHours"
      (delivery.idempotencyRetentionHours.map (fun hours => .number (toString hours))) ++
    optionalField "lookup" (delivery.lookup.map Lookup.toValue) ++
    [("mode", .text delivery.mode.name)])

/-- `serde_json::to_value`: a map sorted by key, without the absent fields. -/
def Destination.toValue (d : Destination) : Value :=
  .object (optionalField "auth" (d.auth.map Auth.toValue) ++
    optionalField "delivery" (d.delivery.map Delivery.toValue) ++
    optionalField "headers" (d.headers.map .object) ++
    optionalField "idempotencyHeader" (d.idempotencyHeader.map .text) ++
    optionalField "idempotencyKey" d.idempotencyKey ++ [("method", .text d.method)] ++
    optionalField "pathParams" (d.pathParams.map .object) ++
    optionalField "queryParams" (d.queryParams.map .object) ++
    [("type", .text d.type), ("url", .text d.url)])

/-- The step that an object refers to by its own key. -/
def ownReference (fields : Data) : List String :=
  match fields.lookup "$fromResponse" with
  | some (.text step) => [step]
  | _ => []

mutual

def collectResponseRefs : Value → List String
  | .object fields => ownReference fields ++ collectInFields fields
  | .list items => collectInItems items
  | .null => []
  | .bool _ => []
  | .number _ => []
  | .text _ => []

def collectInFields : List (String × Value) → List String
  | [] => []
  | (_, value) :: rest => collectResponseRefs value ++ collectInFields rest

def collectInItems : List Value → List String
  | [] => []
  | value :: rest => collectResponseRefs value ++ collectInItems rest

end

def Step.responseRefs (step : Step) : List String :=
  (match step.mapping with
    | some payload => collectResponseRefs (.object payload)
    | none => []) ++ collectResponseRefs step.destination.toValue

inductive DestinationProblem
  | unsupportedAuth
  | missingSecretRef
  | missingIdempotencyHeader
  | missingLookup
  | unusedLookup
deriving DecidableEq, Repr

def DestinationProblem.text : DestinationProblem → String
  | .unsupportedAuth =>
      "auth type oauth2_client is not supported yet; use bearer, basic or api_key"
  | .missingSecretRef => "auth requires secretRef naming a destination secret"
  | .missingIdempotencyHeader => "delivery mode idempotent requires idempotencyHeader"
  | .missingLookup => "delivery mode lookup requires delivery.lookup"
  | .unusedLookup => "delivery.lookup is only used with mode lookup"

/-- The messages of the schema and of the typed decoding are the libraries'. -/
inductive TemplateError
  | schema
  | duplicateStep (step : String)
  | unknownReference (step reference : String)
  | destination (step : String) (problem : DestinationProblem)
deriving DecidableEq, Repr

/-- `debug` stands for the format `{:?}` of a string. -/
def TemplateError.text (debug : String → String) : TemplateError → String
  | .schema => ""
  | .duplicateStep step => "duplicate step name " ++ debug step
  | .unknownReference step reference =>
      "step " ++ debug step ++ " references response of step " ++ debug reference ++
        ", which is not an earlier step"
  | .destination step problem => "step " ++ debug step ++ ": " ++ problem.text

def checkReferences (step : Step) (seen : List String) : List String → Except TemplateError Unit
  | [] => .ok ()
  | reference :: rest =>
      if seen.contains reference then checkReferences step seen rest
      else .error (.unknownReference step.name reference)

def validateStepReferences (seen : List String) : List Step → Except TemplateError Unit
  | [] => .ok ()
  | step :: rest =>
      if seen.contains step.name then .error (.duplicateStep step.name)
      else
        match checkReferences step seen step.responseRefs with
        | .error problem => .error problem
        | .ok _ => validateStepReferences (seen ++ [step.name]) rest

def Auth.problem (auth : Auth) : Option DestinationProblem :=
  if auth.type = "oauth2_client" then some .unsupportedAuth
  else if auth.secretRef.getD "" = "" then some .missingSecretRef
  else none

def Destination.deliveryProblem (d : Destination) (delivery : Delivery) :
    Option DestinationProblem :=
  match delivery.mode, delivery.lookup with
  | .idempotent, lookup =>
      if d.idempotencyHeader.getD "" = "" then some .missingIdempotencyHeader
      else lookup.map (fun _ => .unusedLookup)
  | .lookup, none => some .missingLookup
  | .lookup, some _ => none
  | .manual, lookup => lookup.map (fun _ => .unusedLookup)

def Destination.problem (d : Destination) : Option DestinationProblem :=
  match d.auth.bind Auth.problem with
  | some problem => some problem
  | none => d.delivery.bind d.deliveryProblem

def validateDestinations : List Step → Except TemplateError Unit
  | [] => .ok ()
  | step :: rest =>
      match step.destination.problem with
      | some problem => .error (.destination step.name problem)
      | none => validateDestinations rest

def validateTemplate (tpl : RuleTemplate) : Except TemplateError RuleTemplate :=
  if tpl.fitsSchema = false then .error .schema
  else
    match validateStepReferences [] tpl.executionSteps with
    | .error problem => .error problem
    | .ok _ =>
        match validateDestinations tpl.executionSteps with
        | .error problem => .error problem
        | .ok _ => .ok tpl

/-! ### What acceptance means -/

inductive Ordered : List String → List Step → Prop
  | nil (seen : List String) : Ordered seen []
  | cons {seen : List String} {step : Step} {rest : List Step} (fresh : step.name ∉ seen)
      (earlier : ∀ reference ∈ step.responseRefs, reference ∈ seen)
      (later : Ordered (seen ++ [step.name]) rest) : Ordered seen (step :: rest)

private theorem checkReferences_ok {step : Step} {seen references : List String}
    (passed : checkReferences step seen references = .ok ()) :
    ∀ reference ∈ references, reference ∈ seen := by
  induction references with
  | nil =>
      intro reference impossible
      cases impossible
  | cons first rest ih =>
      intro reference member
      unfold checkReferences at passed
      split at passed
      · rename_i known
        rcases List.mem_cons.mp member with same | later
        · rw [same]
          exact List.contains_iff_mem.mp known
        · exact ih passed reference later
      · cases passed

private theorem validateStepReferences_ok {seen : List String} {steps : List Step}
    (passed : validateStepReferences seen steps = .ok ()) : Ordered seen steps := by
  induction steps generalizing seen with
  | nil => exact .nil seen
  | cons step rest ih =>
      unfold validateStepReferences at passed
      split at passed
      · cases passed
      rename_i fresh
      split at passed
      · cases passed
      rename_i checked
      have fresh : step.name ∉ seen := by
        intro member
        exact fresh (List.contains_iff_mem.mpr member)
      exact .cons fresh (checkReferences_ok checked) (ih passed)

theorem orchestratorSteps_eq {tpl : RuleTemplate} (fits : tpl.fitsSchema = true) :
    tpl.orchestratorSteps = tpl.executionSteps := by
  unfold RuleTemplate.fitsSchema at fits
  unfold RuleTemplate.orchestratorSteps RuleTemplate.executionSteps
  split at fits
  · rename_i mapping destination steps
    rw [mapping, destination, steps]
    rfl
  · rename_i steps mapping destination some
    rw [some]
    simp only [Bool.and_eq_true, decide_eq_true_eq] at fits
    have several : 0 < steps.length := fits.1.1
    exact if_pos several
  · cases fits

theorem validateTemplate_ok {tpl accepted : RuleTemplate}
    (passed : validateTemplate tpl = .ok accepted) :
    tpl.orchestratorSteps = tpl.executionSteps ∧ Ordered [] tpl.orchestratorSteps := by
  unfold validateTemplate at passed
  split at passed
  · cases passed
  rename_i fits
  split at passed
  · cases passed
  rename_i references
  have same := orchestratorSteps_eq ((Bool.not_eq_false _).mp fits)
  constructor
  · exact same
  · rw [same]
    exact validateStepReferences_ok references

theorem validateTemplate_same {tpl accepted : RuleTemplate}
    (passed : validateTemplate tpl = .ok accepted) : tpl = accepted := by
  unfold validateTemplate at passed
  split at passed
  · cases passed
  split at passed
  · cases passed
  split at passed
  · cases passed
  · cases passed
    rfl

private theorem Ordered.not_mem {seen : List String} {steps : List Step}
    (ordered : Ordered seen steps) :
    ∀ step ∈ steps, step.name ∉ seen := by
  induction ordered with
  | nil seen =>
      intro step impossible
      cases impossible
  | cons fresh _earlier _later ih =>
      intro step member
      rcases List.mem_cons.mp member with same | later
      · rw [same]
        exact fresh
      · intro known
        exact ih step later (List.mem_append_left _ known)

theorem Ordered.nodup {seen : List String} {steps : List Step} (ordered : Ordered seen steps) :
    (steps.map Step.name).Nodup := by
  induction ordered with
  | nil seen => exact List.nodup_nil
  | @cons seen step rest fresh earlier later ih =>
      rw [List.map_cons, List.nodup_cons]
      constructor
      · intro member
        obtain ⟨other, otherMember, same⟩ := List.mem_map.mp member
        apply later.not_mem other otherMember
        rw [same]
        exact List.mem_append_right _ List.mem_cons_self
      · exact ih

theorem Ordered.references {seen : List String} {earlier later : List Step} {step : Step}
    (ordered : Ordered seen (earlier ++ step :: later)) :
    ∀ reference ∈ step.responseRefs, reference ∈ seen ++ earlier.map Step.name := by
  induction earlier generalizing seen with
  | nil =>
      cases ordered with
      | cons fresh known rest =>
          rw [List.map_nil, List.append_nil]
          exact known
  | cons first rest ih =>
      cases ordered with
      | cons fresh known tail =>
          intro reference member
          have inside := ih tail reference member
          rw [List.append_assoc] at inside
          exact inside

end MigrationPlatform.Template
