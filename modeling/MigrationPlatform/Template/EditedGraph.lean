/-
The graph of the Designer in a run of edits.

A template that is loaded can be drawn as a well-formed graph unless it has fields or
bindings that the canvas cannot tell apart or has no node for. Edits keep the graph well
formed but for a few: a source field goes with the edges of the active step alone, a
connection may start where no field is, and a sample may have a column twice. A saved
document has the references of the graph and no others.
-/

import MigrationPlatform.Foundation.GuardedRuns
import MigrationPlatform.Template.LoadedGraph

namespace MigrationPlatform.Mapper

open MigrationPlatform.Connectors MigrationPlatform.Template

variable {name : String}

section Save

variable {step : StepUI} {kind : TargetKind}

private theorem mem_set {data : Data} {key : String} {value : Value} {entry : String × Value}
    (member : entry ∈ data.set key value) : entry = (key, value) ∨ entry ∈ data := by
  unfold Data.set at member
  split at member
  · obtain ⟨before, inside, same⟩ := List.mem_map.mp member
    split at same
    · exact Or.inl same.symm
    · rw [← same]
      exact Or.inr inside
  · rcases List.mem_append.mp member with before | new
    · exact Or.inr before
    · exact Or.inl (List.mem_singleton.mp new)

def FromEdges (step : StepUI) (value : Value) : Prop :=
  ∀ expr ∈ boundExprs value, ∃ edge ∈ step.edges, exprOfSource edge.source = some expr

theorem exprOfSource_cases {source : String} {expr : Value} (found : exprOfSource source = some expr) :
    (∃ name, source = nodeIdFor .src name ∧ expr = .object [("$from", .text name)]) ∨
      ∃ parsed, parseRespNode source = some parsed ∧
        expr = .object [("$fromResponse", .text parsed.step), ("path", .text parsed.path)] := by
  unfold exprOfSource at found
  split at found
  next starts =>
      left
      have known : kindOfNode source = some .src := by
        rw [kindOfNode, nodeKinds, List.find?_cons_of_pos]
        exact starts
      exact ⟨bareName source, (nodeIdFor_bareName known).symm, (Option.some.inj found).symm⟩
  next =>
      right
      split at found
      next =>
          obtain ⟨parsed, read, same⟩ := Option.map_eq_some_iff.mp found
          exact ⟨parsed, read, same.symm⟩
      next => cases found

private theorem boundExprs_of_source {source : String} {expr : Value}
    (found : exprOfSource source = some expr) : boundExprs expr = [expr] := by
  rcases exprOfSource_cases found with ⟨name, _, same⟩ | ⟨parsed, _, same⟩
  · rw [same]
    rfl
  · rw [same]
    rfl

private theorem fromEdges_pick {exprs : List Value} {value : Value}
    (picked : pick kind exprs = some value)
    (made : ∀ expr ∈ exprs, ∃ edge ∈ step.edges, exprOfSource edge.source = some expr) :
    FromEdges step value := by
  have one : ∀ expr ∈ exprs, FromEdges step expr := by
    intro expr member other inside
    obtain ⟨edge, own, found⟩ := made expr member
    rw [boundExprs_of_source found, List.mem_singleton] at inside
    rw [inside]
    exact ⟨edge, own, found⟩
  cases exprs with
  | nil => cases picked
  | cons first rest =>
      cases rest with
      | nil =>
          rw [← Option.some.inj picked]
          exact one first List.mem_cons_self
      | cons second rest =>
          change (if kind = .query then some (.list (first :: second :: rest)) else some first) =
            some value at picked
          split at picked
          · rw [← Option.some.inj picked]
            exact made
          · rw [← Option.some.inj picked]
            exact one first List.mem_cons_self

private theorem fromEdges_collectInto {out : Data} (before : ∀ entry ∈ out, FromEdges step entry.2)
    (nodes : List FieldNode) : ∀ entry ∈ collectInto step kind out nodes, FromEdges step entry.2 := by
  induction nodes generalizing out with
  | nil => exact before
  | cons node rest ih =>
      unfold collectInto
      split
      · split
        · rename_i value picked
          apply ih
          intro entry member
          rcases mem_set member with same | old
          · rw [same]
            apply fromEdges_pick picked
            intro expr inside
            obtain ⟨edge, own, found⟩ := List.mem_filterMap.mp inside
            exact ⟨edge, (List.mem_filter.mp own).1, found⟩
          · exact before entry old
        · exact ih before
      · exact ih before

theorem fromEdges_collect : ∀ entry ∈ collect step kind, FromEdges step entry.2 := by
  apply fromEdges_collectInto
  intro entry impossible
  cases impossible

theorem mem_collectInFields_iff {fields : Data} :
    name ∈ collectInFields fields ↔ ∃ entry ∈ fields, name ∈ collectResponseRefs entry.2 := by
  constructor
  · intro member
    induction fields with
    | nil => cases member
    | cons first rest ih =>
        rcases List.mem_append.mp member with here | later
        · exact ⟨first, List.mem_cons_self, here⟩
        · obtain ⟨entry, inside, refers⟩ := ih later
          exact ⟨entry, List.mem_cons_of_mem first inside, refers⟩
  · intro given
    obtain ⟨entry, inside, refers⟩ := given
    exact mem_collectInFields inside refers

private theorem mem_collectInItems_iff {items : List Value} :
    name ∈ collectInItems items ↔ ∃ item ∈ items, name ∈ collectResponseRefs item := by
  constructor
  · intro member
    induction items with
    | nil => cases member
    | cons first rest ih =>
        rcases List.mem_append.mp member with here | later
        · exact ⟨first, List.mem_cons_self, here⟩
        · obtain ⟨item, inside, refers⟩ := ih later
          exact ⟨item, List.mem_cons_of_mem first inside, refers⟩
  · intro given
    obtain ⟨item, inside, refers⟩ := given
    exact mem_collectInItems inside refers

theorem mem_of_ownReference {values : Data} (own : name ∈ ownReference values) :
    ("$fromResponse", .text name) ∈ values := by
  unfold ownReference at own
  split at own
  · rename_i text found
    rw [List.mem_singleton.mp own]
    exact mem_of_lookup found
  · cases own

variable {fields : List String}

private theorem refersTo_of_expr (sound : StepSound fields step)
    (fieldKinds : ∀ id ∈ fields, kindOfNode id = some .src) {edge : FlowEdge}
    (own : edge ∈ step.edges) {expr : Value} (found : exprOfSource edge.source = some expr)
    (refers : name ∈ collectResponseRefs expr) : step.RefersTo name := by
  rcases exprOfSource_cases found with ⟨field, _, same⟩ | ⟨parsed, read, same⟩
  · rw [same] at refers
    cases refers
  · rw [same] at refers
    have named : name = parsed.step := List.mem_singleton.mp refers
    rcases sound.sourced edge own with ⟨field, _⟩ | ⟨node, _⟩
    · have known := fieldKinds edge.source field
      rw [resp_of_parsed read] at known
      cases known
    · exact ⟨edge.source, node, parsed, read, named.symm⟩

private theorem refersTo_of_value (sound : StepSound fields step)
    (fieldKinds : ∀ id ∈ fields, kindOfNode id = some .src) {value : Value}
    (made : FromEdges step value) (refers : name ∈ collectResponseRefs value) :
    step.RefersTo name := by
  have each : ∃ expr ∈ boundExprs value, name ∈ collectResponseRefs expr := by
    cases value with
    | list items => exact mem_collectInItems_iff.mp refers
    | _ => exact ⟨_, List.mem_cons_self, refers⟩
  obtain ⟨expr, member, inside⟩ := each
  obtain ⟨edge, own, found⟩ := made expr member
  exact refersTo_of_expr sound fieldKinds own found inside

private theorem refersTo_of_values (sound : StepSound fields step)
    (fieldKinds : ∀ id ∈ fields, kindOfNode id = some .src) {values : Data}
    (made : ∀ entry ∈ values, FromEdges step entry.2)
    (refers : name ∈ collectResponseRefs (.object values)) : step.RefersTo name := by
  rcases List.mem_append.mp refers with own | inside
  · -- what is bound to a name is never a text
    obtain ⟨edge, _, text⟩ := made _ (mem_of_ownReference own) (.text name) List.mem_cons_self
    rcases exprOfSource_cases text with ⟨_, _, same⟩ | ⟨_, _, same⟩ <;> cases same
  · obtain ⟨entry, member, here⟩ := mem_collectInFields_iff.mp inside
    exact refersTo_of_value sound fieldKinds (made entry member) here

private theorem refs_of_unlessEmpty {values : Data} {key name : String} {entry : String × Value}
    (member : entry ∈ optionalField key ((unlessEmpty values).map .object))
    (refers : name ∈ collectResponseRefs entry.2) : name ∈ collectResponseRefs (.object values) := by
  unfold unlessEmpty at member
  split at member
  · cases member
  · rw [List.mem_singleton.mp member] at refers
    exact refers

theorem saved_destination {entry : String × Value} {values : Data}
    (spelled : (deriveStepJson step).destination.toValue = .object values)
    (member : entry ∈ values) :
    (∃ kind key, key ≠ "$fromResponse" ∧
      entry ∈ optionalField key ((unlessEmpty (collect step kind)).map .object)) ∨
    ∃ key text, key ≠ "$fromResponse" ∧ entry = (key, .text text) := by
  rw [Destination.toValue, Value.object.injEq] at spelled
  rw [← spelled] at member
  simp only [deriveStepJson, Option.map_none, optionalField, Option.toList_none, List.nil_append,
    List.append_nil, List.mem_append, List.mem_cons, List.not_mem_nil, or_false] at member
  rcases member with (((headers | same) | path) | query) | same | same
  · exact Or.inl ⟨.hdr, "headers", by decide, headers⟩
  · exact Or.inr ⟨"method", step.method, by decide, same⟩
  · exact Or.inl ⟨.path, "pathParams", by decide, path⟩
  · exact Or.inl ⟨.query, "queryParams", by decide, query⟩
  · exact Or.inr ⟨"type", "http", by decide, same⟩
  · exact Or.inr ⟨"url", step.url, by decide, same⟩

private theorem key_of_optionalField {key : String} {value : Option Value} {entry : String × Value}
    (member : entry ∈ optionalField key value) : entry.1 = key := by
  unfold optionalField at member
  cases value with
  | none => cases member
  | some present => rw [List.mem_singleton.mp member]

private theorem refersTo_of_saved (sound : StepSound fields step)
    (fieldKinds : ∀ id ∈ fields, kindOfNode id = some .src)
    (refers : name ∈ (deriveStepJson step).toStep.responseRefs) : step.RefersTo name := by
  have values (kind : TargetKind) (inside : name ∈ collectResponseRefs (.object (collect step kind))) :
      step.RefersTo name := refersTo_of_values sound fieldKinds fromEdges_collect inside
  rcases List.mem_append.mp refers with payload | destination
  · exact values .dst payload
  · change name ∈ collectResponseRefs (deriveStepJson step).destination.toValue at destination
    cases spelled : (deriveStepJson step).destination.toValue with
    | object entries =>
        rw [spelled] at destination
        rcases List.mem_append.mp destination with own | inside
        · rcases saved_destination spelled (mem_of_ownReference own) with
            ⟨kind, key, other, member⟩ | ⟨key, text, other, same⟩
          · exact absurd (key_of_optionalField member).symm other
          · exact absurd (congrArg Prod.fst same).symm other
        · obtain ⟨entry, member, here⟩ := mem_collectInFields_iff.mp inside
          rcases saved_destination spelled member with
            ⟨kind, key, _, parameter⟩ | ⟨key, text, _, same⟩
          · exact values kind (refs_of_unlessEmpty parameter here)
          · rw [same] at here
            cases here
    | _ =>
        rw [Destination.toValue] at spelled
        cases spelled

end Save

/-! ### The saved document -/

private theorem checkReferences_of_known {step : Step} {seen references : List String}
    (known : ∀ reference ∈ references, reference ∈ seen) :
    checkReferences step seen references = .ok () := by
  induction references with
  | nil => rfl
  | cons first rest ih =>
      rw [checkReferences, if_pos (List.contains_iff_mem.mpr (known first List.mem_cons_self))]
      exact ih (fun reference member => known reference (List.mem_cons_of_mem first member))

private theorem validateStepReferences_of_ordered {seen : List String} {steps : List Step}
    (ordered : NamedChains.Ordered Step.name (fun step name => name ∈ step.responseRefs) seen steps) :
    validateStepReferences seen steps = .ok () := by
  induction steps generalizing seen with
  | nil => rfl
  | cons step rest ih =>
      obtain ⟨fresh, earlier, later⟩ := ordered
      have unseen : ¬seen.contains step.name = true := by
        rw [List.contains_iff_mem]
        exact fresh
      rw [validateStepReferences, if_neg unseen, checkReferences_of_known earlier]
      exact ih later

section Document

variable {designer : Designer} {template : TemplateRow} {saved : TemplateSchema}

theorem steps_of_saved (derived : deriveTemplateJson template designer = some saved) :
    saved.steps = some (designer.steps.map deriveStepJson) ∧
      saved.source.schema = some (sourceFields designer.srcNodes) := by
  unfold deriveTemplateJson at derived
  split at derived
  · cases derived
  · rw [← Option.some.inj derived]
    exact ⟨rfl, rfl⟩

private theorem saved_references_pass (formed : WellFormed designer)
    (derived : deriveTemplateJson template designer = some saved) :
    validateStepReferences [] saved.ruleTemplate.executionSteps = .ok () := by
  have steps : saved.ruleTemplate.executionSteps =
      designer.steps.map (fun step => (deriveStepJson step).toStep) := by
    rw [RuleTemplate.executionSteps, TemplateSchema.ruleTemplate, (steps_of_saved derived).1,
      Option.map_some, List.map_map]
    rfl
  rw [steps]
  apply validateStepReferences_of_ordered
  apply formed.chain.map
  · intro step
    rfl
  · intro step member name refers
    exact refersTo_of_saved (formed.steps step member) formed.fieldKinds refers

/-- Every row field that the document refers to is one that it declares. -/
def FieldsDeclared (display : Value → String) (schema : TemplateSchema) : Prop :=
  ∀ step ∈ schema.steps.getD [], ∀ kind, ∀ entry ∈ bindings step.toStep kind,
    ∀ expr ∈ boundExprs entry.2, ∀ name, fieldReference display expr = some name →
      name ∈ schema.fieldNames

private theorem mem_sourceFields {srcNodes : List FieldNode}
    (member : nodeIdFor .src name ∈ nodeIds srcNodes) (other : nodeIdFor .src name ≠ hintId) :
    name ∈ (sourceFields srcNodes).map SourceField.name := by
  obtain ⟨node, inside, same⟩ := List.mem_map.mp member
  rw [sourceFields, List.map_map]
  apply List.mem_map.mpr
  refine ⟨node, List.mem_filter.mpr ⟨inside, ?_⟩, ?_⟩
  · rw [bne_iff_ne, same]
    exact other
  · change bareName node.id = name
    rw [same, bareName_nodeIdFor]

private theorem saved_fields_declared (formed : WellFormed designer) (display : Value → String)
    (derived : deriveTemplateJson template designer = some saved) :
    FieldsDeclared display saved := by
  obtain ⟨steps, fields⟩ := steps_of_saved derived
  intro step member kind entry bound expr inside name refers
  rw [steps, Option.getD_some] at member
  obtain ⟨own, shown, rfl⟩ := List.mem_map.mp member
  rw [bindings_deriveStepJson] at bound
  obtain ⟨edge, ownEdge, found⟩ := fromEdges_collect entry bound expr inside
  rw [TemplateSchema.fieldNames, fields, Option.getD_some]
  rcases exprOfSource_cases found with ⟨field, source, same⟩ | ⟨parsed, _, same⟩
  · rw [same] at refers
    have named : field = name := Option.some.inj refers
    rcases (formed.steps own shown).sourced edge ownEdge with ⟨known, other⟩ | ⟨_, response⟩
    · rw [source, named] at known other
      exact mem_sourceFields known other
    · rw [source, kindOfNode_nodeIdFor] at response
      cases response
  · rw [same] at refers
    cases refers

end Document

/-- The edges that the canvas was given and that join one of the nodes. -/
def connectedEdges (ids : List String) (edges : List FlowEdge) : List FlowEdge :=
  edges.filter (fun edge => ids.contains edge.source || ids.contains edge.target)

def isSrc (id : String) : Bool := startsWith id "src:"

/-- Nodes are deleted with their edges in the list of the active step. -/
def deleteNodes (display : Value → String) (designer : Designer) (ids : List String) : Designer :=
  let joined := ((designer.steps[designer.active]?).map (fun step =>
    connectedEdges ids step.edges)).getD []
  let cut := apply display designer (.removeEdges joined)
  let sourced := apply display cut (.removeSourceNodes (ids.filter isSrc))
  apply display sourced (.removeStepNodes (ids.filter (fun id => !isSrc id)))

inductive CanvasEdit
  | change (edit : Edit)
  | deleteNodes (ids : List String)

def act (display : Value → String) (designer : Designer) : CanvasEdit → Designer
  | .change edit => apply display designer edit
  | .deleteNodes ids => deleteNodes display designer ids

/-- A connection joins nodes of the canvas, and its id is of no other edge. -/
structure Joins (designer : Designer) (step : StepUI) (source target : String) (now : Nat) :
    Prop where
  sourced : source ∈ nodeIds designer.srcNodes ∧ source ≠ hintId ∨ source ∈ nodeIds step.nodes
  targeted : target ∈ nodeIds step.nodes
  fresh : ∀ edge ∈ step.edges, survivesConnect source target edge = true →
    edge.id ≠ connectId source target now

def Edit.Safe (display : Value → String) (designer : Designer) : Edit → Prop
  | .removeSourceNodes ids => ∀ step ∈ designer.steps, ∀ edge ∈ step.edges,
      edge.source ∈ nodeIds designer.srcNodes → edge.source ∉ ids
  | .removeStepNodes ids => ∀ step, designer.steps[designer.active]? = some step →
      ∀ edge ∈ step.edges,
        (kindOfNode edge.source = some .resp → edge.source ∉ ids) ∧ edge.target ∉ ids
  | .connectFields source target now => isValidFieldConnection source target = true →
      ∀ step, designer.steps[designer.active]? = some step → Joins designer step source target now
  | .applySample columns => (columns.map SourceField.name).Nodup
  | .suggest template => SchemaDrawn display template
  | _ => True

/-- A source field is deleted only when no step but the active one has an edge from it. -/
def CanvasEdit.Safe (display : Value → String) (designer : Designer) : CanvasEdit → Prop
  | .change edit => edit.Safe display designer
  | .deleteNodes ids => ∀ index step, index ≠ designer.active →
      designer.steps[index]? = some step → ∀ edge ∈ step.edges,
        edge.source ∈ nodeIds designer.srcNodes → edge.source ∉ ids

section Edits

variable {display : Value → String} {designer : Designer}

theorem StepSound.source_cases {fields : List String} {step : StepUI}
    (sound : StepSound fields step) {source : String} (kind : isSourceKind (kindOfNode source) = true)
    (member : source ∈ nodeIds step.nodes) : kindOfNode source = some .resp := by
  rcases sound.kinds source member with target | response
  · cases known : kindOfNode source with
    | none =>
        rw [known] at kind
        cases kind
    | some own =>
        rw [known] at kind target
        cases own with
        | resp => rfl
        | src => cases target
        | _ => cases kind
  · obtain ⟨parsed, found⟩ := Option.isSome_iff_exists.mp response
    exact resp_of_parsed found

private theorem wellFormed_connect (formed : WellFormed designer) {source target : String}
    {now : Nat}
    (valid : isValidFieldConnection source target = true)
    (joins : ∀ step, designer.steps[designer.active]? = some step →
      Joins designer step source target now) :
    WellFormed (updateStep designer designer.active
      (fun step => { step with edges := connectEdges source target now step.edges })) := by
  rw [isValidFieldConnection, Bool.and_eq_true] at valid
  apply formed.connect
  intro step found
  have joined := joins step found
  have sound := formed.steps step (List.mem_of_getElem? found)
  refine ⟨?_, ⟨joined.targeted, valid.2⟩, joined.fresh⟩
  rcases joined.sourced with field | node
  · exact Or.inl field
  · exact Or.inr ⟨node, sound.source_cases valid.1 node⟩

private theorem fresh_of_canAddKey {kind : TargetKind}
    (allowed : canAddKey designer kind name = true) :
    ∀ step, designer.steps[designer.active]? = some step →
      hasNode step.nodes (nodeIdFor kind.node name) = false := by
  intro step found
  rw [canAddKey, found, Option.any_some, Bool.not_eq_true'] at allowed
  exact allowed

private theorem of_canAddResponseRef {stepName path : String}
    (allowed : canAddResponseRef designer stepName path = true) :
    stepName ∈ (designer.steps.map StepUI.name).take designer.active ∧
      ∀ step, designer.steps[designer.active]? = some step →
        hasNode step.nodes (respNodeId stepName path) = false := by
  rw [canAddResponseRef, Bool.and_eq_true, Bool.and_eq_true, Bool.and_eq_true] at allowed
  obtain ⟨⟨⟨_, earlier⟩, _⟩, fresh⟩ := allowed
  constructor
  · rw [← List.map_take]
    exact List.contains_iff_mem.mp earlier
  · intro step found
    rw [found, Option.any_some, Bool.not_eq_true'] at fresh
    exact fresh

theorem wellFormed_apply (formed : WellFormed designer) (edit : Edit)
    (safe : edit.Safe display designer) : WellFormed (apply display designer edit) := by
  have settings {index : Nat} {change : StepUI → StepUI}
      (name : ∀ step, (change step).name = step.name)
      (nodes : ∀ step, (change step).nodes = step.nodes)
      (edges : ∀ step, (change step).edges = step.edges) :
      WellFormed (updateStep designer index change) := formed.settings name nodes edges
  cases edit with
  | layout => exact ⟨formed.fields, formed.fieldKinds, formed.chain, formed.plain, formed.steps⟩
  | setActive index =>
      exact ⟨formed.fields, formed.fieldKinds, formed.chain, formed.plain, formed.steps⟩
  | removeSourceNodes ids => exact formed.removeSources safe
  | removeStepNodes ids => exact formed.removeStepNodes safe
  | removeEdges chosen => exact formed.fewerEdges (fun _ => List.filter_sublist)
  | connectFields source target now =>
      rw [apply]
      split
      next valid => exact wellFormed_connect formed valid (safe valid)
      next => exact formed
  | addSourceField name =>
      rw [apply]
      split
      next => exact formed
      next absent => exact formed.addSource ((Bool.not_eq_true _).mp absent)
  | addTargetKey kind name =>
      rw [apply]
      split
      next allowed => exact formed.addTarget kind name (fresh_of_canAddKey allowed)
      next => exact formed
  | addResponseRef stepName path =>
      rw [apply]
      split
      next allowed =>
          obtain ⟨earlier, fresh⟩ := of_canAddResponseRef allowed
          exact formed.addResponse earlier fresh
      next => exact formed
  | addStep name =>
      rw [apply]
      split
      next allowed =>
          rw [canAddStep, Bool.and_eq_true] at allowed
          apply formed.addStep allowed.1 _ rfl rfl
          simpa using allowed.2
      next => exact formed
  | removeStep index =>
      rw [apply]
      split
      next allowed =>
          rw [canRemoveStep, Bool.and_eq_true, Option.any_eq_true] at allowed
          obtain ⟨_, step, found, unreferenced⟩ := allowed
          exact formed.removeStep found (by simpa using unreferenced)
      next => exact formed
  | renameStep index newName =>
      rw [apply]
      split
      next allowed =>
          rw [canRenameStep, Bool.and_eq_true, Option.any_eq_true] at allowed
          obtain ⟨named, step, found, others⟩ := allowed
          rw [Bool.and_eq_true, Bool.and_eq_true] at others
          exact formed.renameStep found named (by simpa using others.1.2) (by simpa using others.2)
      next => exact formed
  | setMethod method => exact settings (fun _ => rfl) (fun _ => rfl) (fun _ => rfl)
  | setUrl url => exact settings (fun _ => rfl) (fun _ => rfl) (fun _ => rfl)
  | setOnFailure onFailure => exact settings (fun _ => rfl) (fun _ => rfl) (fun _ => rfl)
  | applyOperation operation =>
      rw [apply]
      split
      next => exact formed.applyOperation operation
      next => exact formed
  | applySample columns => exact formed.sample safe
  | suggest template =>
      have unindexed : template.schemaSteps.mapIdx (fun _ step => initStepUI display none step) =
          template.schemaSteps.map (initStepUI display none) := by
        apply List.ext_getElem?
        intro index
        rw [List.getElem?_mapIdx, List.getElem?_map]
      rw [apply, ← unindexed]
      exact wellFormed_of_drawn safe (fun _ => none)

private theorem mem_connectedEdges {ids : List String} {edges : List FlowEdge} {edge : FlowEdge} :
    edge ∈ connectedEdges ids edges ↔ edge ∈ edges ∧ (edge.source ∈ ids ∨ edge.target ∈ ids) := by
  simp [connectedEdges]

private theorem apart_of_removed {ids : List String} {edges : List FlowEdge} {edge : FlowEdge}
    (member : edge ∈ removeEdges (connectedEdges ids edges) edges) :
    edge ∈ edges ∧ edge.source ∉ ids ∧ edge.target ∉ ids := by
  obtain ⟨before, kept⟩ := List.mem_filter.mp member
  have apart : edge ∉ connectedEdges ids edges := by
    intro connected
    have found : (connectedEdges ids edges).any (fun other => other.id == edge.id) = true :=
      List.any_eq_true.mpr ⟨edge, connected, beq_self_eq_true edge.id⟩
    rw [found] at kept
    cases kept
  rw [mem_connectedEdges, not_and, not_or] at apart
  exact ⟨before, apart before⟩

theorem wellFormed_deleteNodes (formed : WellFormed designer) {ids : List String}
    (safe : CanvasEdit.Safe display designer (.deleteNodes ids)) :
    WellFormed (deleteNodes display designer ids) := by
  let joined := ((designer.steps[designer.active]?).map (fun step =>
    connectedEdges ids step.edges)).getD []
  let cut := apply display designer (.removeEdges joined)
  have cutActive : ∀ step, cut.steps[designer.active]? = some step → ∀ edge ∈ step.edges,
      edge.source ∉ ids ∧ edge.target ∉ ids := by
    intro step found edge member
    change (designer.steps.modify designer.active _)[designer.active]? = some step at found
    rw [List.getElem?_modify_eq] at found
    obtain ⟨own, ownFound, rfl⟩ := Option.map_eq_some_iff.mp found
    have edges : joined = connectedEdges ids own.edges := by
      simp only [joined, ownFound, Option.map_some, Option.getD_some]
    change edge ∈ removeEdges joined own.edges at member
    rw [edges] at member
    exact (apart_of_removed member).2
  have cutFormed : WellFormed cut := wellFormed_apply formed (.removeEdges joined) trivial
  have sourceless : WellFormed (apply display cut (.removeSourceNodes (ids.filter isSrc))) := by
    apply wellFormed_apply cutFormed
    intro step member edge inside field chosen
    have selected := (List.mem_filter.mp chosen).1
    obtain ⟨index, found⟩ := List.getElem?_of_mem member
    by_cases active : index = designer.active
    · rw [active] at found
      exact (cutActive step found edge inside).1 selected
    · change (designer.steps.modify designer.active _)[index]? = some step at found
      rw [List.getElem?_modify_ne _ _ (Ne.symm active)] at found
      exact safe index step active found edge inside field selected
  have unjoined : Edit.Safe display (apply display cut (.removeSourceNodes (ids.filter isSrc)))
      (.removeStepNodes (ids.filter (fun id => !isSrc id))) := by
    intro step found edge inside
    obtain ⟨source, target⟩ := cutActive step found edge inside
    exact ⟨fun _ chosen => source (List.mem_filter.mp chosen).1,
      fun chosen => target (List.mem_filter.mp chosen).1⟩
  exact wellFormed_apply sourceless _ unjoined

private theorem wellFormed_act (formed : WellFormed designer) (edit : CanvasEdit)
    (safe : edit.Safe display designer) : WellFormed (act display designer edit) := by
  cases edit with
  | change edit => exact wellFormed_apply formed edit safe
  | deleteNodes ids => exact wellFormed_deleteNodes formed safe

end Edits

/-! ### Accepted templates -/

section Accepted

variable {display : Value → String} {schema : TemplateSchema}

/-- What an accepted template may not have for its graph to be well formed: two source
fields of one name, a reference to a field that it does not declare, a response of a step
whose name is no text, two references for a target that takes one, and two references of
one kind and place whose labels and names join to the same text. -/
structure GraphFits (display : Value → String) (schema : TemplateSchema) : Prop where
  fields : schema.fieldNames.Nodup
  declared : ∀ step ∈ schema.schemaSteps, ∀ kind key,
    ∀ expr ∈ bound (bindings step.toStep kind) key, ∀ name,
      fieldReference display expr = some name → name ∈ schema.fieldNames ∧ name ≠ "__hint"
  responses : ∀ index step, schema.schemaSteps[index]? = some step → ∀ kind key,
    ∀ expr ∈ bound (bindings step.toStep kind) key, ∀ value,
      responseReference expr = some value → (∀ text, value ≠ .text text) →
      stepPart (propertyText display (some value)) ∈ schema.stepNames.take index
  single : ∀ step ∈ schema.schemaSteps, ∀ kind, kind ≠ .query → ∀ key,
    (bound (bindings step.toStep kind) key).countP isReference ≤ 1
  ids : ∀ step ∈ schema.schemaSteps, ∀ kind, (joints display (bindings step.toStep kind)).Nodup

private theorem chain_of_ordered {seen : List String} {steps : List Step}
    (ordered : Ordered seen steps) :
    NamedChains.Ordered Step.name (fun step name => name ∈ step.responseRefs) seen steps := by
  induction ordered with
  | nil seen => trivial
  | cons fresh earlier _later ih => exact ⟨fresh, earlier, ih⟩

private theorem refs_of_bound {expr value : Value} (member : expr ∈ boundExprs value)
    (refers : name ∈ collectResponseRefs expr) : name ∈ collectResponseRefs value := by
  unfold boundExprs at member
  split at member
  next items => exact mem_collectInItems member refers
  next => exact List.mem_singleton.mp member ▸ refers

private theorem refs_of_responseReference {expr : Value}
    (refers : responseReference expr = some (.text name)) : name ∈ collectResponseRefs expr := by
  unfold responseReference at refers
  split at refers
  next values =>
      split at refers
      · cases refers
      · apply List.mem_append_left
        rw [ownReference_of_lookup refers]
        exact List.mem_cons_self
  next => cases refers

theorem stepNames_eq : (schema.schemaSteps.map StepDef.toStep).map Step.name = schema.stepNames := by
  rw [TemplateSchema.stepNames, List.map_map]
  rfl

theorem chain_of_accepted (accepted : schema.accepted = true) :
    NamedChains.Ordered Step.name (fun step name => name ∈ step.responseRefs) []
      (schema.schemaSteps.map StepDef.toStep) := by
  rw [toStep_schemaSteps accepted]
  exact chain_of_ordered (validated accepted).2

private theorem earlier_of_accepted (accepted : schema.accepted = true) {index : Nat}
    {step : StepDef}
    (found : schema.schemaSteps[index]? = some step) {kind : TargetKind} {key : String}
    {expr : Value} (member : expr ∈ bound (bindings step.toStep kind) key)
    (refers : responseReference expr = some (.text name)) : name ∈ schema.stepNames.take index := by
  have inside : name ∈ step.toStep.responseRefs := by
    unfold bound at member
    cases known : (bindings step.toStep kind).lookup key with
    | none =>
        rw [known] at member
        cases member
    | some value =>
        rw [known, Option.map_some, Option.getD_some] at member
        exact mem_responseRefs known (refs_of_bound member (refs_of_responseReference refers))
  have place : (schema.schemaSteps.map StepDef.toStep)[index]? = some step.toStep := by
    rw [List.getElem?_map, found, Option.map_some]
  have earlier := (chain_of_accepted accepted).before place inside
  rw [stepNames_eq, List.nil_append] at earlier
  exact earlier

theorem drawn_of_accepted {template : TemplateRow} (fits : GraphFits display template.schema) :
    SchemaDrawn display template.schema where
  fields := fits.fields
  names := by
    rw [← stepNames_eq]
    exact (chain_of_accepted template.accepted).nodup
  plain name member := by
    obtain ⟨step, inside, rfl⟩ := List.mem_map.mp member
    exact name_plain template.accepted inside
  steps index step found := by
    have member := List.mem_of_getElem? found
    refine ⟨template.distinct step member, ?_, fits.single step member, fits.ids step member⟩
    intro kind key expr inside
    constructor
    · intro name refers
      obtain ⟨known, other⟩ := fits.declared step member kind key expr inside name refers
      refine ⟨List.mem_map_of_mem known, ?_⟩
      intro same
      have spelled : nodeIdFor .src name = nodeIdFor .src "__hint" := same
      exact other (nodeIdFor_inj spelled).2
    · intro value refers
      by_cases textual : ∃ text, value = .text text
      · obtain ⟨text, rfl⟩ := textual
        have earlier := earlier_of_accepted template.accepted found inside refers
        obtain ⟨other, named, same⟩ := List.mem_map.mp (List.mem_of_mem_take earlier)
        have plain := name_plain template.accepted named
        rw [propertyText, stepPart_of_plain (same ▸ plain)]
        exact earlier
      · exact fits.responses index step found kind key expr inside value refers
          (fun text same => textual ⟨text, same⟩)

end Accepted

/-- The graph of the Designer, and what its edits and its saved document rely on. -/
structure GraphLaw (display : Value → String) (designer : Designer) : Prop where
  nodes : ∀ step ∈ designer.steps, (nodeIds designer.srcNodes ++ nodeIds step.nodes).Nodup
  edges : ∀ step ∈ designer.steps, (step.edges.map FlowEdge.id).Nodup
  joined : ∀ step ∈ designer.steps, ∀ edge ∈ step.edges,
    (edge.source ∈ nodeIds designer.srcNodes ∨
      edge.source ∈ nodeIds step.nodes ∧ (parseRespNode edge.source).isSome = true) ∧
    edge.target ∈ nodeIds step.nodes ∧ isTargetKind (kindOfNode edge.target) = true
  single : ∀ step ∈ designer.steps, ∀ id, kindOfNode id ≠ some .query →
    (step.edges.filter (fun edge => edge.target == id)).length ≤ 1
  earlier : ∀ index step, designer.steps[index]? = some step → ∀ id ∈ nodeIds step.nodes,
    kindOfNode id = some .resp → ∃ parsed, parseRespNode id = some parsed ∧
      parsed.step ∈ (designer.steps.map StepUI.name).take index
  removal : ∀ step ∈ designer.steps, ∀ edge ∈ step.edges,
    removeEdges [edge] step.edges = step.edges.erase edge
  saved : ∀ template saved, deriveTemplateJson template designer = some saved →
    validateStepReferences [] saved.ruleTemplate.executionSteps = .ok () ∧
      FieldsDeclared display saved

section Law

variable {display : Value → String} {designer : Designer}

private theorem removeEdges_single {edges : List FlowEdge}
    (distinct : (edges.map FlowEdge.id).Nodup)
    {edge : FlowEdge} (member : edge ∈ edges) : removeEdges [edge] edges = edges.erase edge := by
  rw [distinct.of_map.erase_eq_filter, removeEdges]
  apply List.filter_congr
  intro other inside
  rw [List.any_cons, List.any_nil, Bool.or_false, bne]
  congr 1
  rw [Bool.eq_iff_iff, beq_iff_eq, beq_iff_eq]
  constructor
  · intro same
    exact (List.inj_on_of_nodup_map distinct inside member same.symm)
  · intro same
    rw [same]

theorem graphLaw_of_wellFormed (formed : WellFormed designer) : GraphLaw display designer where
  nodes step member := by
    have sound := formed.steps step member
    rw [List.nodup_append]
    refine ⟨formed.fields, sound.nodes, ?_⟩
    intro id field other node same
    rw [← same] at node
    have known := formed.fieldKinds id field
    rcases sound.kinds id node with target | response
    · rw [known] at target
      cases target
    · obtain ⟨parsed, found⟩ := Option.isSome_iff_exists.mp response
      rw [resp_of_parsed found] at known
      cases known
  edges step member := (formed.steps step member).edges
  joined step member edge own := by
    have sound := formed.steps step member
    refine ⟨?_, sound.targeted edge own⟩
    rcases sound.sourced edge own with ⟨field, _⟩ | ⟨node, response⟩
    · exact Or.inl field
    · right
      refine ⟨node, ?_⟩
      rcases sound.kinds edge.source node with target | parsed
      · rw [response] at target
        cases target
      · exact parsed
  single step member id other := by
    have few := (formed.steps step member).single id other
    rw [sources, List.length_map] at few
    exact few
  earlier index step found id node response := by
    rcases (formed.steps step (List.mem_of_getElem? found)).kinds id node with target | parsed
    · rw [response] at target
      cases target
    · obtain ⟨read, same⟩ := Option.isSome_iff_exists.mp parsed
      exact ⟨read, same, formed.chain.before found ⟨id, node, read, same, rfl⟩⟩
  removal step member edge own := removeEdges_single (formed.steps step member).edges own
  saved _ _ derived :=
    ⟨saved_references_pass formed derived, saved_fields_declared formed display derived⟩

def canvasStep (display : Value → String) (designer : Designer) (edit : CanvasEdit) : Option Designer :=
  some (act display designer edit)

/-- From a template that fits, the law holds in every state that safe edits lead to. -/
theorem graph_law_holds (display : Value → String) (template : TemplateRow)
    (fits : GraphFits display template.schema) (edits : List CanvasEdit) (designer : Designer)
    (safe : GuardedRuns.Obeys (canvasStep display) (fun designer edit => edit.Safe display designer)
      (load display template) edits)
    (ran : GuardedRuns.run (canvasStep display) (load display template) edits = some designer) :
    GraphLaw display designer := by
  have loaded : WellFormed (load display template) :=
    wellFormed_of_drawn (drawn_of_accepted fits) some
  have formed : WellFormed designer := by
    apply GuardedRuns.invariant_of_obeys _ edits _ designer loaded safe ran
    intro before edit after allowed formed taken
    rw [← Option.some.inj taken]
    exact wellFormed_act formed edit allowed
  exact graphLaw_of_wellFormed formed

end Law

def notifyStep : StepDef := { contactStep none with name := "notify" }

def sharedSchema : TemplateSchema :=
  { contactSchema none with
    source := { type := "csv", schema := some [⟨"email", "string"⟩, ⟨"name", "string"⟩] }
    steps := some [contactStep none, notifyStep] }

private theorem shared_binding {step : StepDef} (member : step ∈ sharedSchema.schemaSteps)
    {kind : TargetKind} {key : String} {value : Value}
    (found : (bindings step.toStep kind).lookup key = some value) :
    value = .object [("$from", .text "email")] := by
  have same : bindings step.toStep = bindings (contactStep none).toStep := by
    rcases List.mem_cons.mp member with first | second
    · rw [first]
    · rw [List.mem_singleton.mp second]
      rfl
  rw [same] at found
  exact contact_entry found

private theorem shared_distinct : ∀ step ∈ sharedSchema.schemaSteps, ∀ kind,
    ((bindings step.toStep kind).map Prod.fst).Nodup := by
  intro step member kind
  rcases List.mem_cons.mp member with first | second
  · rw [first]
    cases kind <;> decide
  · rw [List.mem_singleton.mp second]
    cases kind <;> decide

def sharedTemplate : TemplateRow where
  id := 2
  name := "Contacts"
  version := 1
  schema := sharedSchema
  accepted := by decide +kernel
  distinct := shared_distinct

theorem shared_bound {step : StepDef} (member : step ∈ sharedSchema.schemaSteps)
    (kind : TargetKind) (key : String) :
    bound (bindings step.toStep kind) key = [] ∨
      bound (bindings step.toStep kind) key = [.object [("$from", .text "email")]] := by
  unfold bound
  cases found : (bindings step.toStep kind).lookup key with
  | none => exact Or.inl rfl
  | some value =>
      rw [shared_binding member found]
      exact Or.inr rfl

theorem shared_fits : GraphFits objectText sharedTemplate.schema where
  fields := by decide +kernel
  declared step member kind key expr inside name refers := by
    rcases shared_bound member kind key with none | one
    · rw [none] at inside
      cases inside
    · rw [one, List.mem_singleton] at inside
      rw [inside] at refers
      rw [← Option.some.inj refers]
      decide +kernel
  responses index step found kind key expr inside value refers _ := by
    rcases shared_bound (List.mem_of_getElem? found) kind key with none | one
    · rw [none] at inside
      cases inside
    · rw [one, List.mem_singleton] at inside
      rw [inside] at refers
      cases refers
  single step member kind _ key := by
    rcases shared_bound member kind key with none | one
    · rw [none]
      decide
    · rw [one]
      decide
  ids step member kind := by
    rcases List.mem_cons.mp member with first | second
    · rw [first]
      cases kind <;> decide +kernel
    · rw [List.mem_singleton.mp second]
      cases kind <;> decide +kernel

/-- A field is added and takes the place of the other in the first step. -/
def addThenConnect : List CanvasEdit :=
  [.change (.addSourceField "phone"), .change (.connectFields "src:phone" "dst:email" 7)]

theorem phone_for_email : ∃ designer,
    GuardedRuns.run (canvasStep objectText) (load objectText sharedTemplate) addThenConnect =
      some designer ∧ GraphLaw objectText designer := by
  refine ⟨_, rfl, ?_⟩
  apply graph_law_holds objectText sharedTemplate shared_fits addThenConnect _ _ rfl
  refine ⟨trivial, ?_, trivial⟩
  intro _ step found
  cases found
  constructor
  · decide +kernel
  · decide +kernel
  · decide +kernel

/-- The field of both steps is deleted in the canvas of the first, whose target then gets
another one. -/
def deleteThenConnect : List CanvasEdit :=
  [.deleteNodes ["src:email"], .change (.connectFields "src:name" "dst:email" 7)]

def sharedCanvas : Designer :=
  act objectText (deleteNodes objectText (load objectText sharedTemplate) ["src:email"])
    (.change (.connectFields "src:name" "dst:email" 7))

/-- The second step keeps its edge, and the document is offered for saving. -/
theorem shared_field_deleted :
    GuardedRuns.run (canvasStep objectText) (load objectText sharedTemplate) deleteThenConnect =
      some sharedCanvas ∧ (saved? sharedTemplate sharedCanvas).isSome = true ∧
      ¬GraphLaw objectText sharedCanvas := by
  refine ⟨rfl, by decide +kernel, ?_⟩
  intro law
  have joined : ∀ step ∈ sharedCanvas.steps, ∀ edge ∈ step.edges,
      edge.source ∈ nodeIds sharedCanvas.srcNodes ∨ edge.source ∈ nodeIds step.nodes := by
    intro step member edge own
    rcases (law.joined step member edge own).1 with field | node
    · exact Or.inl field
    · exact Or.inr node.1
  exact absurd joined (by decide +kernel)

end MigrationPlatform.Mapper
