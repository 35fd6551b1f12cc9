/-
The Designer: a template on a canvas.

Loading turns each step of a template into nodes, one for each name that it binds,
and edges, one for each row field or earlier response that is bound to a name.
Edits change nodes, edges and a few settings of a step. Saving reads the template
back from the nodes and edges.

Positions, labels and selections are left out, and so is what only the dialogs hold.
`origin` is no field of the source: it says which step of the loaded template a step
of the canvas shows.
-/

import MigrationPlatform.Template.Validate

namespace MigrationPlatform.Mapper

open MigrationPlatform.Connectors MigrationPlatform.Template

structure SourceField where
  name : String
  type : String

structure SourceSpec where
  type : String
  schema : Option (List SourceField) := none
  options : Option Data := none
  connectorId : Option Int := none

inductive Backoff
  | exponential
  | fixed
deriving DecidableEq, Repr

structure Retry where
  maxAttempts : Option Nat
  backoff : Option Backoff
  initialIntervalMs : Option Nat

/-- The properties `$from` and `$fromResponse` lose their sigil. -/
structure ExportColumn where
  name : String
  fromField : Option String
  fromResponse : Option String
  path : Option String

structure StepDef extends Step where
  description : Option String := none

/-- The schema requires `id`, `version`, `name` and `preprocess`. -/
structure TemplateSchema where
  id : String
  version : Nat
  name : String
  source : SourceSpec
  preprocess : List Value := []
  mapping : Option Data := none
  destination : Option Destination := none
  steps : Option (List StepDef) := none
  retry : Option Retry := none
  concurrency : Option Nat := none
  exportSpec : Option (List ExportColumn) := none

def TemplateSchema.ruleTemplate (schema : TemplateSchema) : RuleTemplate where
  mapping := schema.mapping
  destination := schema.destination
  steps := schema.steps.map (fun steps => steps.map StepDef.toStep)

def TemplateSchema.accepted (schema : TemplateSchema) : Bool :=
  match validateTemplate schema.ruleTemplate with
  | .ok _ => true
  | .error _ => false

inductive NodeKind
  | src
  | resp
  | dst
  | path
  | query
  | hdr
deriving DecidableEq, Repr

inductive TargetKind
  | dst
  | path
  | query
  | hdr
deriving DecidableEq, Repr

def TargetKind.node : TargetKind → NodeKind
  | .dst => .dst
  | .path => .path
  | .query => .query
  | .hdr => .hdr

def NodeKind.name : NodeKind → String
  | .src => "src"
  | .resp => "resp"
  | .dst => "dst"
  | .path => "path"
  | .query => "query"
  | .hdr => "hdr"

/-- The keys of `NODE_KINDS` in their order; the prefix of each is its name and a colon. -/
def nodeKinds : List NodeKind := [.src, .resp, .dst, .path, .query, .hdr]

def NodeKind.prefixText (kind : NodeKind) : String := kind.name ++ ":"

def startsWith (text start : String) : Bool := start.toList.isPrefixOf text.toList

def sliceFrom (text : String) (length : Nat) : String := String.ofList (text.toList.drop length)

def nodeIdFor (kind : NodeKind) (name : String) : String := kind.prefixText ++ name

def kindOfNode (id : String) : Option NodeKind :=
  nodeKinds.find? (fun kind => startsWith id kind.prefixText)

def bareName (id : String) : String :=
  match kindOfNode id with
  | none => id
  | some kind => sliceFrom id kind.prefixText.length

def respNodeId (step path : String) : String := "resp:" ++ step ++ "|" ++ path

structure ResponsePath where
  step : String
  path : String

def parseRespNode (id : String) : Option ResponsePath :=
  if startsWith id "resp:" then
    let rest := (sliceFrom id 5).toList
    match rest.dropWhile (fun c => c != '|') with
    | [] => none
    | _ :: path => some ⟨String.ofList (rest.takeWhile (fun c => c != '|')), String.ofList path⟩
  else none

def isSourceKind : Option NodeKind → Bool
  | some .src => true
  | some .resp => true
  | _ => false

def isTargetKind : Option NodeKind → Bool
  | some .dst => true
  | some .path => true
  | some .query => true
  | some .hdr => true
  | _ => false

def isValidFieldConnection (sourceId targetId : String) : Bool :=
  isSourceKind (kindOfNode sourceId) && isTargetKind (kindOfNode targetId)

structure FieldNode where
  id : String
  fieldType : Option String := none

structure FlowEdge where
  id : String
  source : String
  target : String
deriving DecidableEq

structure StepUI where
  name : String
  onFailure : Option OnFailure := none
  nodes : List FieldNode
  edges : List FlowEdge
  url : String
  method : String
  origin : Option Nat := none

structure Designer where
  srcNodes : List FieldNode
  steps : List StepUI
  active : Nat
  dirty : Bool

def makeFieldNode (kind : NodeKind) (name : String) (fieldType : Option String) : FieldNode where
  id := nodeIdFor kind name
  fieldType := fieldType

def makeRespNode (step path : String) : FieldNode where
  id := respNodeId step path
  fieldType := some ("from " ++ step)

def hasNode (nodes : List FieldNode) (id : String) : Bool := nodes.any (fun node => node.id == id)

def bindings (step : Step) : TargetKind → Data
  | .dst => step.mapping.getD []
  | .path => step.destination.pathParams.getD []
  | .query => step.destination.queryParams.getD []
  | .hdr => step.destination.headers.getD []

def TemplateSchema.schemaSteps (schema : TemplateSchema) : List StepDef :=
  match schema.steps with
  | some (first :: rest) => first :: rest
  | _ =>
      [{ name := "main"
         mapping := some (schema.mapping.getD [])
         destination := schema.destination.getD { url := "", method := "POST", type := "http" } }]

def initSrcNodes (schema : TemplateSchema) : List FieldNode :=
  (schema.source.schema.getD []).map (fun field => makeFieldNode .src field.name (some field.type))

/-- `display` is the text that the language makes of a value that is no text. -/
def propertyText (display : Value → String) : Option Value → String
  | none => "undefined"
  | some (.text value) => value
  | some other => display other

structure Loading where
  nodes : List FieldNode := []
  edges : List FlowEdge := []
  respSeen : List String := []

section Load

variable (display : Value → String)

def bindExpr (kind : TargetKind) (key : String) (index : Nat) (loading : Loading) : Value → Loading
  | .object fields =>
      match fields.lookup "$from" with
      | some field =>
          let name := propertyText display (some field)
          { loading with
            edges := loading.edges ++
              [{ id := "e-" ++ kind.node.name ++ "-" ++ name ++ "-" ++ key ++ "-" ++ toString index
                 source := nodeIdFor .src name
                 target := nodeIdFor kind.node key }] }
      | none =>
          match fields.lookup "$fromResponse" with
          | some step =>
              let name := propertyText display (some step)
              let path := propertyText display (fields.lookup "path")
              let rid := respNodeId name path
              let seen := loading.respSeen.contains rid
              { nodes := if seen then loading.nodes else loading.nodes ++ [makeRespNode name path]
                respSeen := if seen then loading.respSeen else loading.respSeen ++ [rid]
                edges := loading.edges ++
                  [{ id := "e-" ++ kind.node.name ++ "-resp-" ++ key ++ "-" ++ toString index
                     source := rid
                     target := nodeIdFor kind.node key }] }
          | none => loading
  | _ => loading

def boundExprs : Value → List Value
  | .list items => items
  | expr => [expr]

def bindExprs (kind : TargetKind) (key : String) (index : Nat) (loading : Loading) :
    List Value → Loading
  | [] => loading
  | expr :: rest => bindExprs kind key (index + 1) (bindExpr display kind key index loading expr) rest

def bindKeys (kind : TargetKind) (values : Data) (loading : Loading) : List String → Loading
  | [] => loading
  | key :: rest =>
      let noded := { loading with nodes := loading.nodes ++ [makeFieldNode kind.node key none] }
      bindKeys kind values
        (bindExprs display kind key 0 noded (((values.lookup key).map boundExprs).getD [])) rest

def bind (kind : TargetKind) (step : Step) (loading : Loading) : Loading :=
  bindKeys display kind (bindings step kind) loading ((bindings step kind).map Prod.fst)

def initStepUI (origin : Option Nat) (step : StepDef) : StepUI :=
  let loaded := bind display .hdr step.toStep (bind display .query step.toStep
    (bind display .path step.toStep (bind display .dst step.toStep {})))
  { name := step.name
    onFailure := step.onFailure
    nodes := loaded.nodes
    edges := loaded.edges
    url := step.destination.url
    method := step.destination.method
    origin := origin }

/-- A template as the API returns it: accepted, and its objects have distinct names. -/
structure TemplateRow where
  id : Nat
  name : String
  version : Nat
  schema : TemplateSchema
  accepted : schema.accepted = true
  distinct : ∀ step ∈ schema.schemaSteps, ∀ kind, ((bindings step.toStep kind).map Prod.fst).Nodup

def load (template : TemplateRow) : Designer where
  srcNodes := initSrcNodes template.schema
  steps := template.schema.schemaSteps.mapIdx (fun index step => initStepUI display (some index) step)
  active := 0
  dirty := false

end Load

/-! ### Saving -/

def exprOfSource (source : String) : Option Value :=
  if startsWith source "src:" then some (.object [("$from", .text (bareName source))])
  else if startsWith source "resp:" then
    (parseRespNode source).map (fun parsed =>
      .object [("$fromResponse", .text parsed.step), ("path", .text parsed.path)])
  else none

def bucket (step : StepUI) (kind : TargetKind) (key : String) : List Value :=
  (step.edges.filter (fun edge => kindOfNode edge.target == some kind.node && bareName edge.target == key)).filterMap
    (fun edge => exprOfSource edge.source)

/-- Names that every object of the language inherits; a bucket of such a name is no
array, and the push into it throws. -/
def inheritedNames : List String :=
  ["__proto__", "constructor", "hasOwnProperty", "isPrototypeOf", "propertyIsEnumerable",
    "toLocaleString", "toString", "valueOf", "__defineGetter__", "__defineSetter__",
    "__lookupGetter__", "__lookupSetter__"]

def throws (step : StepUI) : Bool :=
  step.edges.any (fun edge => isTargetKind (kindOfNode edge.target) &&
    (exprOfSource edge.source).isSome && inheritedNames.contains (bareName edge.target))

/-- Of several expressions all stay for a query parameter and the first elsewhere. -/
def pick (kind : TargetKind) : List Value → Option Value
  | [] => none
  | [only] => some only
  | first :: second :: rest =>
      if kind = .query then some (.list (first :: second :: rest)) else some first

def collectInto (step : StepUI) (kind : TargetKind) (out : Data) : List FieldNode → Data
  | [] => out
  | node :: rest =>
      if kindOfNode node.id = some kind.node then
        match pick kind (bucket step kind (bareName node.id)) with
        | some value => collectInto step kind (out.set (bareName node.id) value) rest
        | none => collectInto step kind out rest
      else collectInto step kind out rest

def collect (step : StepUI) (kind : TargetKind) : Data := collectInto step kind [] step.nodes

def unlessEmpty (values : Data) : Option Data := if values.isEmpty then none else some values

def deriveStepJson (step : StepUI) : StepDef where
  name := step.name
  mapping := some (collect step .dst)
  destination :=
    { type := "http"
      method := step.method
      url := step.url
      pathParams := unlessEmpty (collect step .path)
      queryParams := unlessEmpty (collect step .query)
      headers := unlessEmpty (collect step .hdr) }
  onFailure := if step.onFailure = some .continue then some .continue else none

def hintId : String := "src:__hint"

def sourceFields (srcNodes : List FieldNode) : List SourceField :=
  (srcNodes.filter (fun node => node.id != hintId)).map (fun node =>
    ⟨bareName node.id, node.fieldType.getD "string"⟩)

def defaultOptions : Data := [("header", .bool true), ("delimiter", .text ",")]

/-- `none` where the computation throws. -/
def deriveTemplateJson (template : TemplateRow) (designer : Designer) : Option TemplateSchema :=
  if designer.steps.any throws then none
  else
    some
      { id := template.schema.id
        version := template.schema.version
        name := template.name
        source :=
          { type := template.schema.source.type
            schema := some (sourceFields designer.srcNodes)
            options := some (template.schema.source.options.getD defaultOptions) }
        preprocess := template.schema.preprocess
        steps := some (designer.steps.map deriveStepJson) }

def isAbsolute (url : String) : Bool := startsWith url "http://" || startsWith url "https://"

def stepLabel (index : Nat) (step : StepUI) : String :=
  "Step " ++ toString (index + 1) ++ " (" ++ step.name ++ ")"

def targets (step : StepUI) : List FieldNode :=
  step.nodes.filter (fun node => isTargetKind (kindOfNode node.id))

def isMapped (step : StepUI) (node : FieldNode) : Bool :=
  step.edges.any (fun edge => edge.target == node.id)

def stepIssues (index : Nat) (step : StepUI) : List String :=
  (if isAbsolute step.url then []
    else [stepLabel index step ++ " needs an absolute HTTP(S) destination URL."]) ++
  (if (targets step).isEmpty then [stepLabel index step ++ " has no destination fields."] else []) ++
  (if (targets step).any (fun node => !isMapped step node) then
    [stepLabel index step ++ " has unmapped destination fields."] else [])

def validationErrors (designer : Designer) : List String :=
  (if (designer.srcNodes.filter (fun node => node.id != hintId)).isEmpty then
    ["Add at least one source field."] else []) ++
  (designer.steps.mapIdx stepIssues).flatten

def saved? (template : TemplateRow) (designer : Designer) : Option TemplateSchema :=
  if designer.dirty && (validationErrors designer).isEmpty then deriveTemplateJson template designer
  else none

structure Parameter where
  name : String
  place : String
  required : Bool

/-- An operation of an OpenAPI document; `properties` and `required` are of the request. -/
structure Operation where
  url : String
  method : String
  parameters : List Parameter
  properties : List String
  required : List String

inductive Edit
  /-- Dragging, selecting and measuring nodes. -/
  | layout
  | setActive (index : Nat)
  | removeSourceNodes (ids : List String)
  | removeStepNodes (ids : List String)
  /-- Edges chosen on the canvas, or the one of a row in the list of mappings. -/
  | removeEdges (chosen : List FlowEdge)
  | connectFields (source target : String) (now : Nat)
  | addSourceField (name : String)
  | addTargetKey (kind : TargetKind) (name : String)
  | addResponseRef (stepName path : String)
  | addStep (name : String)
  | removeStep (index : Nat)
  | renameStep (index : Nat) (newName : String)
  | setMethod (method : String)
  | setUrl (url : String)
  | setOnFailure (onFailure : OnFailure)
  | applyOperation (operation : Operation)
  | applySample (columns : List SourceField)
  | suggest (template : TemplateSchema)

def updateStep (designer : Designer) (index : Nat) (change : StepUI → StepUI) : Designer :=
  { designer with dirty := true, steps := designer.steps.modify index change }

/-- An edge to another target than `target`; to a query parameter, also one from elsewhere. -/
def survivesConnect (source target : String) (edge : FlowEdge) : Bool :=
  !(kindOfNode target != some .query && edge.target == target) &&
    !(edge.source == source && edge.target == target)

def connectEdges (source target : String) (now : Nat) (edges : List FlowEdge) : List FlowEdge :=
  edges.filter (survivesConnect source target) ++
    [{ id := "e-" ++ source ++ "-" ++ target ++ "-" ++ toString now, source := source, target := target }]

def removeNodes (ids : List String) (nodes : List FieldNode) : List FieldNode :=
  nodes.filter (fun node => !ids.contains node.id)

/-- Edges go by their ids. -/
def removeEdges (chosen edges : List FlowEdge) : List FlowEdge :=
  edges.filter (fun edge => !chosen.any (fun other => other.id == edge.id))

def canAddKey (designer : Designer) (kind : TargetKind) (name : String) : Bool :=
  (designer.steps[designer.active]?).any (fun step => !hasNode step.nodes (nodeIdFor kind.node name))

def canAddResponseRef (designer : Designer) (stepName path : String) : Bool :=
  designer.active != 0 &&
    ((designer.steps.take designer.active).map StepUI.name).contains stepName &&
    startsWith path "$" &&
    (designer.steps[designer.active]?).any (fun step => !hasNode step.nodes (respNodeId stepName path))

def isReferenced (designer : Designer) (index : Nat) (name : String) : Bool :=
  (designer.steps.eraseIdx index).any (fun step =>
    step.nodes.any (fun node => (parseRespNode node.id).any (fun parsed => parsed.step == name)))

def canAddStep (designer : Designer) (name : String) : Bool :=
  isStepName name && !designer.steps.any (fun step => step.name == name)

def canRemoveStep (designer : Designer) (index : Nat) : Bool :=
  designer.steps.length != 1 &&
    (designer.steps[index]?).any (fun step => !isReferenced designer index step.name)

def canRenameStep (designer : Designer) (index : Nat) (newName : String) : Bool :=
  isStepName newName &&
    (designer.steps[index]?).any (fun step =>
      newName != step.name &&
        !(designer.steps.eraseIdx index).any (fun other => other.name == newName) &&
        !isReferenced designer index step.name)

def pushKey (nodes : List FieldNode) (key : TargetKind × String) : List FieldNode :=
  if hasNode nodes (nodeIdFor key.1.node key.2) then nodes
  else nodes ++ [makeFieldNode key.1.node key.2 none]

def parameterKey (parameter : Parameter) : Option (TargetKind × String) :=
  if parameter.place = "path" then some (.path, parameter.name)
  else if parameter.place = "query" ∧ parameter.required = true then some (.query, parameter.name)
  else none

/-- The required properties come first; at most twenty-four are taken. -/
def operationKeys (operation : Operation) : List (TargetKind × String) :=
  operation.parameters.filterMap parameterKey ++
    ((operation.properties.filter operation.required.contains ++
      operation.properties.filter (fun name => !operation.required.contains name)).take 24).map
        (fun name => (.dst, name))

/-- An edge from a row field goes when the sample has no column of that name. -/
def survivesSample (columns : List SourceField) (edge : FlowEdge) : Bool :=
  !startsWith edge.source "src:" ||
    (columns.map (fun column => nodeIdFor .src column.name)).contains edge.source

def apply (display : Value → String) (designer : Designer) : Edit → Designer
  | .layout => { designer with dirty := true }
  | .setActive index => { designer with active := index }
  | .removeSourceNodes ids =>
      { designer with dirty := true, srcNodes := removeNodes ids designer.srcNodes }
  | .removeStepNodes ids =>
      updateStep designer designer.active (fun step => { step with nodes := removeNodes ids step.nodes })
  | .removeEdges chosen =>
      updateStep designer designer.active (fun step => { step with edges := removeEdges chosen step.edges })
  | .connectFields source target now =>
      if isValidFieldConnection source target then
        updateStep designer designer.active
          (fun step => { step with edges := connectEdges source target now step.edges })
      else designer
  | .addSourceField name =>
      if hasNode designer.srcNodes (nodeIdFor .src name) then designer
      else
        { designer with
          dirty := true
          srcNodes := designer.srcNodes ++ [makeFieldNode .src name (some "string")] }
  | .addTargetKey kind name =>
      if canAddKey designer kind name then
        updateStep designer designer.active
          (fun step => { step with nodes := step.nodes ++ [makeFieldNode kind.node name none] })
      else designer
  | .addResponseRef stepName path =>
      if canAddResponseRef designer stepName path then
        updateStep designer designer.active
          (fun step => { step with nodes := step.nodes ++ [makeRespNode stepName path] })
      else designer
  | .addStep name =>
      if canAddStep designer name then
        { designer with
          dirty := true
          steps := designer.steps ++
            [{ name := name, nodes := [], edges := [], url := "", method := "POST" }]
          active := designer.steps.length }
      else designer
  | .removeStep index =>
      if canRemoveStep designer index then
        { designer with
          dirty := true
          steps := designer.steps.eraseIdx index
          active :=
            if designer.active > index then designer.active - 1
            else min designer.active (designer.steps.length - 2) }
      else designer
  | .renameStep index newName =>
      if canRenameStep designer index newName then
        updateStep designer index (fun step => { step with name := newName })
      else designer
  | .setMethod method => updateStep designer designer.active (fun step => { step with method := method })
  | .setUrl url => updateStep designer designer.active (fun step => { step with url := url })
  | .setOnFailure onFailure =>
      updateStep designer designer.active (fun step => { step with onFailure := some onFailure })
  | .applyOperation operation =>
      if isAbsolute operation.url then
        updateStep designer designer.active (fun step =>
          { step with
            url := operation.url
            method := operation.method
            nodes := (operationKeys operation).foldl pushKey step.nodes })
      else designer
  | .applySample columns =>
      { designer with
        dirty := true
        srcNodes := columns.map (fun column => makeFieldNode .src column.name (some column.type))
        steps := designer.steps.map (fun step =>
          { step with edges := step.edges.filter (survivesSample columns) }) }
  | .suggest template =>
      { srcNodes := initSrcNodes template
        steps := template.schemaSteps.map (initStepUI display none)
        active := 0
        dirty := true }

end MigrationPlatform.Mapper
