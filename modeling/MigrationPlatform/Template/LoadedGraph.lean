/-
The graph that the Designer makes of a template.

The source nodes are the fields that the template declares. A step gets a target for
every name it binds, a response node for every response it refers to, and an edge for
every reference. The ids of the edges join names without a mark of where one ends, so
that two of them can be equal.
-/

import Mathlib.Data.List.TakeWhile
import MigrationPlatform.Foundation.Decimals
import MigrationPlatform.Template.MappingGraph

namespace MigrationPlatform.Mapper

open MigrationPlatform.Connectors MigrationPlatform.Template

section References

variable (display : Value → String)

def bound (values : Data) (key : String) : List Value :=
  ((values.lookup key).map boundExprs).getD []

def fieldReference : Value → Option String
  | .object values => (values.lookup "$from").map (fun field => propertyText display (some field))
  | _ => none

/-- The step whose response an expression refers to, as it stands in the template. -/
def responseReference : Value → Option Value
  | .object values => if (values.lookup "$from").isSome then none else values.lookup "$fromResponse"
  | _ => none

def sourceLabel (expr : Value) : Option String :=
  (fieldReference display expr).or ((responseReference expr).map (fun _ => "resp"))

/-- What the id of an edge has of a reference besides the kind of its target: the label
of the source joined to the name, and the place among what is bound to the name. -/
def jointAt (key : String) (entry : Value × Nat) : Option (String × Nat) :=
  (sourceLabel display entry.1).map (fun label => (label ++ "-" ++ key, entry.2))

def jointsOf (values : Data) (keys : List String) : List (String × Nat) :=
  keys.flatMap (fun key => (bound values key).zipIdx.filterMap (jointAt display key))

def joints (values : Data) : List (String × Nat) := jointsOf display values (values.map Prod.fst)

end References

def edgeId (kind : TargetKind) (joint : String × Nat) : String :=
  "e-" ++ kind.node.name ++ "-" ++ joint.1 ++ "-" ++ toString joint.2

theorem edgeId_toList (kind : TargetKind) (joint : String × Nat) :
    (edgeId kind joint).toList = 'e' :: '-' :: (kind.node.name.toList ++
      '-' :: (joint.1.toList ++ '-' :: (toString joint.2).toList)) := by
  simp only [edgeId, String.toList_append, List.append_assoc]
  rfl

theorem kindName_unmarked (kind : TargetKind) : '-' ∉ kind.node.name.toList := by
  cases kind <;> decide

private theorem kindName_inj {kind other : TargetKind}
    (same : kind.node.name.toList = other.node.name.toList) : kind = other := by
  cases kind <;> cases other <;> first | rfl | (revert same; decide)

theorem edgeId_inj {kind other : TargetKind} {joint another : String × Nat}
    (same : edgeId kind joint = edgeId other another) : kind = other ∧ joint = another := by
  have texts := congrArg String.toList same
  rw [edgeId_toList, edgeId_toList] at texts
  have inner := (List.cons.inj (List.cons.inj texts).2).2
  obtain ⟨names, rest⟩ :=
    Decimals.append_mark_inj _ (kindName_unmarked kind) (kindName_unmarked other) inner
  obtain ⟨joined, place⟩ := Decimals.append_digits_inj (by decide) rest
  exact ⟨kindName_inj names, Prod.ext (String.toList_inj.mp joined) place⟩

section Ids

variable {display : Value → String} {kind : TargetKind}

theorem ids_bindExpr (key : String) (index : Nat) (loading : Loading) (expr : Value) :
    (bindExpr display kind key index loading expr).edges.map FlowEdge.id =
      loading.edges.map FlowEdge.id ++
        ((jointAt display key (expr, index)).map (edgeId kind)).toList := by
  unfold bindExpr
  split
  next values =>
      split
      next field found =>
          simp [jointAt, sourceLabel, fieldReference, found, edgeId, String.append_assoc]
      next absent =>
          split
          next step found =>
              have marked : "-resp-" = "-" ++ "resp" ++ "-" := by decide
              simp [jointAt, sourceLabel, fieldReference, responseReference, absent, found, edgeId,
                String.append_assoc]
              rw [marked, String.append_assoc, String.append_assoc]
          next missing =>
              simp [jointAt, sourceLabel, fieldReference, responseReference, absent, missing]
  next other =>
      have plain : sourceLabel display expr = none := by
        unfold sourceLabel fieldReference responseReference
        split
        next values => exact absurd rfl (other values)
        next => rfl
      simp [jointAt, plain]

private theorem ids_bindExprs (key : String) (index : Nat) (loading : Loading)
    (exprs : List Value) :
    (bindExprs display kind key index loading exprs).edges.map FlowEdge.id =
      loading.edges.map FlowEdge.id ++
        ((exprs.zipIdx index).filterMap (jointAt display key)).map (edgeId kind) := by
  induction exprs generalizing index loading with
  | nil => rw [bindExprs, List.zipIdx_nil, List.filterMap_nil, List.map_nil, List.append_nil]
  | cons expr rest ih =>
      rw [bindExprs, ih, ids_bindExpr, List.zipIdx_cons, List.append_assoc]
      cases joint : jointAt display key (expr, index) with
      | none => rw [List.filterMap_cons_none joint, Option.map_none, Option.toList_none, List.nil_append]
      | some found =>
          rw [List.filterMap_cons_some joint, Option.map_some, Option.toList_some, List.map_cons,
            List.singleton_append]

private theorem ids_bindKeys (values : Data) (loading : Loading) (keys : List String) :
    (bindKeys display kind values loading keys).edges.map FlowEdge.id =
      loading.edges.map FlowEdge.id ++ (jointsOf display values keys).map (edgeId kind) := by
  induction keys generalizing loading with
  | nil => rw [bindKeys, jointsOf, List.flatMap_nil, List.map_nil, List.append_nil]
  | cons key rest ih =>
      have first : jointsOf display values (key :: rest) =
          (bound values key).zipIdx.filterMap (jointAt display key) ++
            jointsOf display values rest := List.flatMap_cons
      rw [bindKeys, ih, ids_bindExprs, first, List.map_append, List.append_assoc]
      rfl

def targetKinds : List TargetKind := [.dst, .path, .query, .hdr]

private theorem ids_initStepUI (origin : Option Nat) (step : StepDef) :
    (initStepUI display origin step).edges.map FlowEdge.id =
      targetKinds.flatMap (fun kind =>
        (joints display (bindings step.toStep kind)).map (edgeId kind)) := by
  simp only [initStepUI, bind, ids_bindKeys, targetKinds, List.flatMap_cons, List.flatMap_nil,
    List.append_nil, List.map_nil, List.nil_append, List.append_assoc]
  rfl

private theorem nodup_ids {step : StepDef} (origin : Option Nat)
    (distinct : ∀ kind, (joints display (bindings step.toStep kind)).Nodup) :
    ((initStepUI display origin step).edges.map FlowEdge.id).Nodup := by
  rw [ids_initStepUI, List.nodup_flatMap]
  constructor
  · intro kind _
    exact (distinct kind).map (fun _ _ same => (edgeId_inj same).2)
  · have kinds : targetKinds.Nodup := by decide
    apply kinds.imp
    intro kind other apart id first second
    obtain ⟨joint, _, same⟩ := List.mem_map.mp first
    obtain ⟨another, _, again⟩ := List.mem_map.mp second
    exact apart (edgeId_inj (same.trans again.symm)).1

end Ids

/-- The step that the id of a response is read back as: the name up to a bar in it. -/
def stepPart (name : String) : String :=
  String.ofList (name.toList.takeWhile (fun c => c != '|'))

theorem stepPart_of_plain {name : String} (plain : '|' ∉ name.toList) : stepPart name = name := by
  have keeps : ∀ c ∈ name.toList, (c != '|') = true := by
    intro c member
    rw [bne_iff_ne]
    intro same
    rw [same] at member
    exact plain member
  rw [stepPart, List.takeWhile_eq_self_iff.mpr keeps, String.ofList_toList]

private theorem split_at_mark (mark : Char) (left right : List Char) :
    (∃ rest, (left ++ mark :: right).dropWhile (fun c => c != mark) = mark :: rest) ∧
      (left ++ mark :: right).takeWhile (fun c => c != mark) =
        left.takeWhile (fun c => c != mark) := by
  induction left with
  | nil => simp
  | cons c left ih =>
      by_cases same : c = mark
      · simp [same]
      · simpa [same] using ih

theorem parsed_respNodeId (name path : String) :
    ∃ parsed, parseRespNode (respNodeId name path) = some parsed ∧ parsed.step = stepPart name := by
  obtain ⟨⟨rest, dropped⟩, taken⟩ := split_at_mark '|' name.toList path.toList
  rw [parseRespNode, if_pos (startsWith_respNodeId name path)]
  simp only [sliceFrom_respNodeId, dropped, taken]
  exact ⟨_, rfl, rfl⟩

/-- The graph of a step while it is loaded: the nodes so far, and edges between them. -/
structure LoadingSound (fields earlier : List String) (loading : Loading) : Prop where
  nodes : (nodeIds loading.nodes).Nodup
  seen : ∀ id, id ∈ loading.respSeen ↔ id ∈ nodeIds loading.nodes ∧ kindOfNode id = some .resp
  kinds : ∀ id ∈ nodeIds loading.nodes, isTargetKind (kindOfNode id) = true ∨
    ∃ name path, stepPart name ∈ earlier ∧ id = respNodeId name path
  sourced : ∀ edge ∈ loading.edges, edge.source ∈ fields ∧ edge.source ≠ hintId ∨
    edge.source ∈ nodeIds loading.nodes ∧ kindOfNode edge.source = some .resp
  targeted : ∀ edge ∈ loading.edges,
    edge.target ∈ nodeIds loading.nodes ∧ isTargetKind (kindOfNode edge.target) = true

/-- Where an expression refers to a row field or to a response, the canvas has it. -/
structure Drawn (display : Value → String) (fields earlier : List String) (expr : Value) : Prop where
  declared : ∀ name, fieldReference display expr = some name →
    nodeIdFor .src name ∈ fields ∧ nodeIdFor .src name ≠ hintId
  earlier : ∀ step, responseReference expr = some step →
    stepPart (propertyText display (some step)) ∈ earlier

section Ends

variable {display : Value → String} {fields earlier : List String} {loading : Loading}
  {kind : TargetKind} {key : String}

theorem LoadingSound.addEdge (sound : LoadingSound fields earlier loading) {edge : FlowEdge}
    (sourced : edge.source ∈ fields ∧ edge.source ≠ hintId ∨
      edge.source ∈ nodeIds loading.nodes ∧ kindOfNode edge.source = some .resp)
    (targeted : edge.target ∈ nodeIds loading.nodes ∧
      isTargetKind (kindOfNode edge.target) = true) :
    LoadingSound fields earlier { loading with edges := loading.edges ++ [edge] } where
  nodes := sound.nodes
  seen := sound.seen
  kinds := sound.kinds
  sourced other member := by
    rcases List.mem_append.mp member with before | new
    · exact sound.sourced other before
    · rw [List.mem_singleton.mp new]
      exact sourced
  targeted other member := by
    rcases List.mem_append.mp member with before | new
    · exact sound.targeted other before
    · rw [List.mem_singleton.mp new]
      exact targeted

theorem LoadingSound.addNode (sound : LoadingSound fields earlier loading) {node : FieldNode}
    {respSeen : List String} (fresh : node.id ∉ nodeIds loading.nodes)
    (seen : ∀ id, id ∈ respSeen ↔
      id ∈ loading.respSeen ∨ id = node.id ∧ kindOfNode id = some .resp)
    (kind : isTargetKind (kindOfNode node.id) = true ∨
      ∃ name path, stepPart name ∈ earlier ∧ node.id = respNodeId name path) :
    LoadingSound fields earlier
      { loading with nodes := loading.nodes ++ [node], respSeen := respSeen } := by
  have member : ∀ id, id ∈ nodeIds (loading.nodes ++ [node]) ↔
      id ∈ nodeIds loading.nodes ∨ id = node.id := by
    intro id
    simp [nodeIds]
  constructor
  · change (nodeIds (loading.nodes ++ [node])).Nodup
    rw [nodeIds, List.map_append, List.nodup_append_comm]
    exact List.nodup_cons.mpr ⟨fresh, sound.nodes⟩
  · intro id
    rw [seen, member, sound.seen, or_and_right]
  · intro id inside
    rcases (member id).mp inside with before | same
    · exact sound.kinds id before
    · rw [same]
      exact kind
  · intro edge inside
    rcases sound.sourced edge inside with field | ⟨before, response⟩
    · exact Or.inl field
    · exact Or.inr ⟨(member _).mpr (Or.inl before), response⟩
  · intro edge inside
    obtain ⟨before, target⟩ := sound.targeted edge inside
    exact ⟨(member _).mpr (Or.inl before), target⟩

theorem isTargetKind_nodeIdFor (kind : TargetKind) (key : String) :
    isTargetKind (kindOfNode (nodeIdFor kind.node key)) = true := by
  rw [kindOfNode_nodeIdFor]
  exact isTargetKind_node kind

theorem LoadingSound.bindExpr (sound : LoadingSound fields earlier loading) (index : Nat)
    {expr : Value} (drawn : Drawn display fields earlier expr)
    (known : nodeIdFor kind.node key ∈ nodeIds loading.nodes) :
    LoadingSound fields earlier (Mapper.bindExpr display kind key index loading expr) := by
  unfold Mapper.bindExpr
  split
  next values =>
      split
      next field found =>
          apply sound.addEdge
          · left
            apply drawn.declared
            simp [fieldReference, found]
          · exact ⟨known, isTargetKind_nodeIdFor kind key⟩
      next absent =>
          split
          next step found =>
              have before : stepPart (propertyText display (some step)) ∈ earlier := by
                apply drawn.earlier
                simp [responseReference, absent, found]
              let rid := respNodeId (propertyText display (some step))
                (propertyText display (values.lookup "path"))
              have response : kindOfNode rid = some .resp := kindOfNode_respNodeId _ _
              cases seen : loading.respSeen.contains rid with
              | true =>
                  have there := (sound.seen rid).mp (List.contains_iff_mem.mp seen)
                  simp only [rid] at seen
                  simp only [seen, if_true]
                  exact sound.addEdge (Or.inr there) ⟨known, isTargetKind_nodeIdFor kind key⟩
              | false =>
                  have fresh : rid ∉ nodeIds loading.nodes := by
                    intro member
                    have there := (sound.seen rid).mpr ⟨member, response⟩
                    rw [List.contains_iff_mem.mpr there] at seen
                    cases seen
                  have noded : LoadingSound fields earlier
                      { loading with
                        nodes := loading.nodes ++ [makeRespNode (propertyText display (some step))
                          (propertyText display (values.lookup "path"))]
                        respSeen := loading.respSeen ++ [rid] } := by
                    apply sound.addNode fresh
                    · intro id
                      rw [List.mem_append, List.mem_singleton]
                      apply or_congr_right
                      constructor
                      · intro same
                        rw [same]
                        exact ⟨rfl, response⟩
                      · intro same
                        exact same.1
                    · exact Or.inr ⟨_, _, before, rfl⟩
                  simp only [rid] at seen
                  simp only [seen, Bool.false_eq_true, if_false]
                  apply noded.addEdge
                  · right
                    refine ⟨?_, response⟩
                    rw [nodeIds, List.map_append]
                    exact List.mem_append_right _ List.mem_cons_self
                  · refine ⟨?_, isTargetKind_nodeIdFor kind key⟩
                    rw [nodeIds, List.map_append]
                    exact List.mem_append_left _ known
          next => exact sound
  next => exact sound

theorem LoadingSound.bindExprs (sound : LoadingSound fields earlier loading) (index : Nat)
    {exprs : List Value} (drawn : ∀ expr ∈ exprs, Drawn display fields earlier expr)
    (known : nodeIdFor kind.node key ∈ nodeIds loading.nodes) :
    LoadingSound fields earlier (Mapper.bindExprs display kind key index loading exprs) := by
  induction exprs generalizing index loading with
  | nil => exact sound
  | cons expr rest ih =>
      apply ih (sound.bindExpr index (drawn expr List.mem_cons_self) known)
      · intro other member
        exact drawn other (List.mem_cons_of_mem expr member)
      · rw [← hasNode_iff, hasNode_bindExpr, hasNode_iff]
        exact known

theorem LoadingSound.bindKeys (sound : LoadingSound fields earlier loading) {values : Data}
    {keys : List String} (distinct : keys.Nodup)
    (absent : ∀ key ∈ keys, hasNode loading.nodes (nodeIdFor kind.node key) = false)
    (drawn : ∀ key ∈ keys, ∀ expr ∈ bound values key, Drawn display fields earlier expr) :
    LoadingSound fields earlier (Mapper.bindKeys display kind values loading keys) := by
  induction keys generalizing loading with
  | nil => exact sound
  | cons key rest ih =>
      rw [List.nodup_cons] at distinct
      have noded : LoadingSound fields earlier
          { loading with nodes := loading.nodes ++ [makeFieldNode kind.node key none] } := by
        apply sound.addNode (not_hasNode_iff.mp (absent key List.mem_cons_self))
        · intro id
          constructor
          · exact Or.inl
          · intro given
            rcases given with before | ⟨same, response⟩
            · exact before
            · rw [same, kindOfNode_makeFieldNode] at response
              cases kind <;> cases response
        · exact Or.inl (isTargetKind_nodeIdFor kind key)
      have known : nodeIdFor kind.node key ∈
          nodeIds (loading.nodes ++ [makeFieldNode kind.node key none]) := by
        rw [nodeIds, List.map_append]
        exact List.mem_append_right _ List.mem_cons_self
      apply ih (noded.bindExprs 0 (drawn key List.mem_cons_self) known) distinct.2
      · intro other member
        rw [hasNode_bindExprs, hasNode_append, hasNode_single,
          absent other (List.mem_cons_of_mem key member), Bool.false_or, makeFieldNode,
          beq_eq_false_iff_ne]
        intro same
        rw [(target_iff.mp same).2] at distinct
        exact distinct.1 member
      · intro other member
        exact drawn other (List.mem_cons_of_mem key member)

theorem LoadingSound.bind (sound : LoadingSound fields earlier loading) {step : Step}
    (distinct : ((bindings step kind).map Prod.fst).Nodup)
    (absent : ∀ key, hasNode loading.nodes (nodeIdFor kind.node key) = false)
    (drawn : ∀ key, ∀ expr ∈ bound (bindings step kind) key, Drawn display fields earlier expr) :
    LoadingSound fields earlier (Mapper.bind display kind step loading) :=
  sound.bindKeys distinct (fun key _ => absent key) (fun key _ => drawn key)

theorem LoadingSound.empty : LoadingSound fields earlier {} := by
  constructor <;> simp [nodeIds]

end Ends

/-! ### A loaded step -/

section Step

variable {display : Value → String} {fields earlier : List String} {step : StepDef}

/-- What the canvas can draw of a step: the references are to row fields and responses it
has, a target other than a query parameter has one of them, and their edges get ids of
their own. -/
structure StepDrawn (display : Value → String) (fields earlier : List String) (step : Step) :
    Prop where
  names : ∀ kind, ((bindings step kind).map Prod.fst).Nodup
  drawn : ∀ kind key, ∀ expr ∈ bound (bindings step kind) key, Drawn display fields earlier expr
  single : ∀ kind, kind ≠ .query → ∀ key, (bound (bindings step kind) key).countP isReference ≤ 1
  ids : ∀ kind, (joints display (bindings step kind)).Nodup

theorem loading_initStepUI (drawn : StepDrawn display fields earlier step.toStep) :
    LoadingSound fields earlier (bind display .hdr step.toStep (bind display .query step.toStep
      (bind display .path step.toStep (bind display .dst step.toStep {})))) := by
  have payload : LoadingSound fields earlier (bind display .dst step.toStep {}) :=
    LoadingSound.empty.bind (drawn.names .dst) (fun _ => rfl) (drawn.drawn .dst)
  have path : LoadingSound fields earlier
      (bind display .path step.toStep (bind display .dst step.toStep {})) := by
    apply payload.bind (drawn.names .path) _ (drawn.drawn .path)
    intro key
    rw [hasNode_bind]
    rfl
  have query : LoadingSound fields earlier (bind display .query step.toStep
      (bind display .path step.toStep (bind display .dst step.toStep {}))) := by
    apply path.bind (drawn.names .query) _ (drawn.drawn .query)
    intro key
    rw [hasNode_bind, hasNode_bind]
    rfl
  apply query.bind (drawn.names .hdr) _ (drawn.drawn .hdr)
  intro key
  rw [hasNode_bind, hasNode_bind, hasNode_bind]
  rfl

private theorem target_of_isTargetKind {id : String} (known : isTargetKind (kindOfNode id) = true) :
    ∃ kind : TargetKind, kindOfNode id = some kind.node := by
  unfold isTargetKind at known
  split at known
  next same => exact ⟨.dst, same⟩
  next same => exact ⟨.path, same⟩
  next same => exact ⟨.query, same⟩
  next same => exact ⟨.hdr, same⟩
  next => cases known

private theorem length_loadedSources (values : Data) (key : String) :
    (loadedSources display values key).length = (bound values key).countP isReference := by
  have references : (fun expr => (edgeSource display expr).isSome) = isReference :=
    funext (edgeSource_isSome display)
  rw [loadedSources, List.length_filterMap_eq_countP, references]
  rfl

theorem initStepUI_sound (drawn : StepDrawn display fields earlier step.toStep)
    (origin : Option Nat) : StepSound fields (initStepUI display origin step) := by
  have loaded := loading_initStepUI drawn
  constructor
  · exact loaded.nodes
  · intro id member
    rcases loaded.kinds id member with target | ⟨name, path, _, same⟩
    · exact Or.inl target
    · right
      obtain ⟨parsed, found, _⟩ := parsed_respNodeId name path
      rw [same, found]
      rfl
  · exact nodup_ids origin drawn.ids
  · exact loaded.sourced
  · exact loaded.targeted
  · intro id other
    by_cases known : isTargetKind (kindOfNode id) = true
    · obtain ⟨kind, found⟩ := target_of_isTargetKind known
      have notQuery : kind ≠ .query := by
        intro same
        rw [found, same] at other
        exact other rfl
      have seen : sources (initStepUI display origin step).edges (nodeIdFor kind.node (bareName id)) =
          loadedSources display (bindings step.toStep kind) (bareName id) :=
        congrArg Prod.snd (target_initStepUI drawn.names)
      rw [← nodeIdFor_bareName found, seen, length_loadedSources]
      exact drawn.single kind notQuery (bareName id)
    · have nothing : sources (initStepUI display origin step).edges id = [] := by
        rw [sources, List.map_eq_nil_iff, List.filter_eq_nil_iff]
        intro edge member same
        apply known
        rw [← beq_iff_eq.mp same]
        exact (loaded.targeted edge member).2
      rw [nothing]
      exact Nat.zero_le 1

private theorem refersTo_initStepUI (drawn : StepDrawn display fields earlier step.toStep)
    {origin : Option Nat} {name : String}
    (refers : (initStepUI display origin step).RefersTo name) : name ∈ earlier := by
  obtain ⟨id, member, parsed, found, same⟩ := refers
  rcases (loading_initStepUI drawn).kinds id member with target | ⟨known, path, inEarlier, spelled⟩
  · rw [resp_of_parsed found] at target
    cases target
  · obtain ⟨read, again, part⟩ := parsed_respNodeId known path
    rw [spelled, again, Option.some.injEq] at found
    rw [← same, ← found, part]
    exact inEarlier

end Step

section Loading

variable {display : Value → String} {schema : TemplateSchema}

def TemplateSchema.fieldNames (schema : TemplateSchema) : List String :=
  (schema.source.schema.getD []).map SourceField.name

def TemplateSchema.stepNames (schema : TemplateSchema) : List String :=
  schema.schemaSteps.map (fun step => step.name)

structure SchemaDrawn (display : Value → String) (schema : TemplateSchema) : Prop where
  fields : schema.fieldNames.Nodup
  names : schema.stepNames.Nodup
  plain : ∀ name ∈ schema.stepNames, '|' ∉ name.toList
  steps : ∀ index step, schema.schemaSteps[index]? = some step →
    StepDrawn display (schema.fieldNames.map (nodeIdFor .src)) (schema.stepNames.take index)
      step.toStep

theorem nodeIds_initSrcNodes (schema : TemplateSchema) :
    nodeIds (initSrcNodes schema) = schema.fieldNames.map (nodeIdFor .src) := by
  rw [nodeIds, initSrcNodes, TemplateSchema.fieldNames, List.map_map, List.map_map]
  rfl

theorem wellFormed_of_drawn (drawn : SchemaDrawn display schema) (origin : Nat → Option Nat)
    {active : Nat} {dirty : Bool} :
    WellFormed
      { srcNodes := initSrcNodes schema
        steps := schema.schemaSteps.mapIdx (fun index step => initStepUI display (origin index) step)
        active := active, dirty := dirty } := by
  have names : (schema.schemaSteps.mapIdx
      (fun index step => initStepUI display (origin index) step)).map StepUI.name =
        schema.stepNames := by
    apply List.ext_getElem?
    intro index
    rw [TemplateSchema.stepNames, List.getElem?_map, List.getElem?_map, List.getElem?_mapIdx,
      Option.map_map]
    rfl
  constructor
  · rw [nodeIds_initSrcNodes]
    exact nodup_sourceIds drawn.fields
  · intro id member
    rw [nodeIds_initSrcNodes] at member
    obtain ⟨name, _, rfl⟩ := List.mem_map.mp member
    exact kindOfNode_nodeIdFor .src name
  · apply NamedChains.ordered_of_before
    · rw [names]
      exact drawn.names
    · intro index shown found name refers
      rw [List.getElem?_mapIdx] at found
      obtain ⟨step, known, rfl⟩ := Option.map_eq_some_iff.mp found
      rw [names, List.nil_append]
      exact refersTo_initStepUI (drawn.steps index step known) refers
  · intro name member
    rw [names] at member
    exact drawn.plain name member
  · intro shown member
    obtain ⟨index, found⟩ := List.getElem?_of_mem member
    rw [List.getElem?_mapIdx] at found
    obtain ⟨step, known, rfl⟩ := Option.map_eq_some_iff.mp found
    rw [nodeIds_initSrcNodes]
    exact initStepUI_sound (drawn.steps index step known) (origin index)

end Loading

end MigrationPlatform.Mapper
