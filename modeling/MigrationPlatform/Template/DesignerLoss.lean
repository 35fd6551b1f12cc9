/-
What a template loses in the Designer.

A run of edits touches some parts of the loaded template. The law says of all the
others that they mean the same to the orchestrator in the template that is saved, and
of a run that touches nothing that the steps are the same. It holds of the parts that
nodes, edges and the settings of a step can represent; everything else of a step, and
the settings of the template that the document is not rebuilt with, are lost.
-/

import MigrationPlatform.Template.Designer
import MigrationPlatform.Template.StepReferences
import MigrationPlatform.Foundation.EditFrames

namespace MigrationPlatform.Mapper

open MigrationPlatform.Connectors MigrationPlatform.Template EditFrames

theorem startsWith_append (start rest : String) : startsWith (start ++ rest) start = true := by
  rw [startsWith, String.toList_append]
  exact List.isPrefixOf_iff_prefix.mpr (List.prefix_append _ _)

theorem kindOfNode_nodeIdFor (kind : NodeKind) (name : String) :
    kindOfNode (nodeIdFor kind name) = some kind := by
  cases kind <;>
    simp [kindOfNode, nodeKinds, startsWith, nodeIdFor, NodeKind.prefixText, NodeKind.name,
      String.toList_append]

theorem sliceFrom_append (start rest : String) : sliceFrom (start ++ rest) start.length = rest := by
  rw [sliceFrom, String.toList_append, ← String.length_toList, List.drop_left, String.ofList_toList]

theorem bareName_nodeIdFor (kind : NodeKind) (name : String) :
    bareName (nodeIdFor kind name) = name := by
  rw [bareName, kindOfNode_nodeIdFor]
  exact sliceFrom_append kind.prefixText name

theorem nodeIdFor_bareName {id : String} {kind : NodeKind} (known : kindOfNode id = some kind) :
    nodeIdFor kind (bareName id) = id := by
  have starts : startsWith id kind.prefixText = true := by simpa using List.find?_some known
  obtain ⟨rest, same⟩ := List.isPrefixOf_iff_prefix.mp starts
  have spelled : id = kind.prefixText ++ String.ofList rest := by
    rw [← String.toList_inj, String.toList_append, String.toList_ofList, same]
  rw [bareName, known]
  simp only
  rw [spelled, sliceFrom_append]
  rfl

theorem nodeId_iff {id key : String} {kind : NodeKind} :
    (kindOfNode id = some kind ∧ bareName id = key) ↔ id = nodeIdFor kind key := by
  constructor
  · rintro ⟨known, rfl⟩
    exact (nodeIdFor_bareName known).symm
  · rintro rfl
    exact ⟨kindOfNode_nodeIdFor kind key, bareName_nodeIdFor kind key⟩

theorem nodeIdFor_inj {kind other : NodeKind} {name key : String}
    (same : nodeIdFor kind name = nodeIdFor other key) : kind = other ∧ name = key := by
  obtain ⟨sameKind, sameName⟩ := nodeId_iff.mpr same
  rw [kindOfNode_nodeIdFor] at sameKind
  rw [bareName_nodeIdFor] at sameName
  exact ⟨Option.some.inj sameKind, sameName⟩

private theorem targetNode_inj {kind other : TargetKind} (same : kind.node = other.node) :
    kind = other := by
  cases kind <;> cases other <;> first | rfl | cases same

theorem target_iff {kind other : TargetKind} {name key : String} :
    nodeIdFor kind.node name = nodeIdFor other.node key ↔ kind = other ∧ name = key := by
  constructor
  · intro same
    obtain ⟨sameNode, sameName⟩ := nodeIdFor_inj same
    exact ⟨targetNode_inj sameNode, sameName⟩
  · rintro ⟨rfl, rfl⟩
    rfl

theorem respNodeId_eq (step path : String) :
    respNodeId step path = nodeIdFor .resp (step ++ "|" ++ path) := by
  simp only [respNodeId, nodeIdFor, NodeKind.prefixText, NodeKind.name, String.append_assoc]
  rfl

theorem respNodeId_ne_target (step path key : String) (kind : TargetKind) :
    respNodeId step path ≠ nodeIdFor kind.node key := by
  intro same
  rw [respNodeId_eq] at same
  have sameKind := (nodeIdFor_inj same).1
  cases kind <;> cases sameKind

theorem startsWith_respNodeId (step path : String) :
    startsWith (respNodeId step path) "resp:" = true := by
  rw [respNodeId, String.append_assoc, String.append_assoc]
  exact startsWith_append _ _

theorem sliceFrom_respNodeId (step path : String) :
    (sliceFrom (respNodeId step path) 5).toList = step.toList ++ '|' :: path.toList := by
  have spelled : respNodeId step path = "resp:" ++ (step ++ "|" ++ path) := by
    rw [respNodeId, String.append_assoc, String.append_assoc, String.append_assoc]
  rw [spelled, show (5 : Nat) = "resp:".length from rfl, sliceFrom_append, String.toList_append,
    String.toList_append, List.append_assoc]
  rfl

theorem parseRespNode_respNodeId {step : String} (path : String) (plain : '|' ∉ step.toList) :
    parseRespNode (respNodeId step path) = some ⟨step, path⟩ := by
  have keeps : ∀ c ∈ step.toList, (c != '|') = true := by
    intro c member
    rw [bne_iff_ne]
    rintro rfl
    exact plain member
  rw [parseRespNode, if_pos (startsWith_respNodeId step path)]
  simp only [sliceFrom_respNodeId]
  rw [List.dropWhile_append_of_pos keeps, List.takeWhile_append_of_pos keeps]
  simp

def sources (edges : List FlowEdge) (id : String) : List String :=
  (edges.filter (fun edge => edge.target == id)).map FlowEdge.source

theorem sources_append (edges more : List FlowEdge) (id : String) :
    sources (edges ++ more) id = sources edges id ++ sources more id := by
  rw [sources, List.filter_append, List.map_append]
  rfl

theorem sources_single (edge : FlowEdge) (id : String) :
    sources [edge] id = if edge.target = id then [edge.source] else [] := by
  by_cases same : edge.target = id
  · rw [if_pos same, sources, List.filter_cons_of_pos (by simpa using same)]
    rfl
  · rw [if_neg same, sources, List.filter_cons_of_neg (by simpa using same)]
    rfl

theorem hasNode_append (nodes more : List FieldNode) (id : String) :
    hasNode (nodes ++ more) id = (hasNode nodes id || hasNode more id) := List.any_append

theorem hasNode_single (node : FieldNode) (id : String) : hasNode [node] id = (node.id == id) := by
  rw [hasNode, List.any_cons, List.any_nil, Bool.or_false]

private theorem bucket_eq (step : StepUI) (kind : TargetKind) (key : String) :
    bucket step kind key =
      (sources step.edges (nodeIdFor kind.node key)).filterMap exprOfSource := by
  rw [bucket, sources, List.filterMap_map]
  congr 1
  apply List.filter_congr
  intro edge _
  rw [Bool.eq_iff_iff, Bool.and_eq_true, beq_iff_eq, beq_iff_eq, beq_iff_eq]
  exact nodeId_iff

private theorem exprOfSource_src (name : String) :
    exprOfSource (nodeIdFor .src name) = some (.object [("$from", .text name)]) := by
  have starts : startsWith (nodeIdFor .src name) "src:" = true := startsWith_append "src:" name
  rw [exprOfSource, if_pos starts, bareName_nodeIdFor]

private theorem exprOfSource_resp {step : String} (path : String) (plain : '|' ∉ step.toList) :
    exprOfSource (respNodeId step path) =
      some (.object [("$fromResponse", .text step), ("path", .text path)]) := by
  have other : startsWith (respNodeId step path) "src:" = false := by
    simp [startsWith, respNodeId, String.toList_append, List.isPrefixOf]
  rw [exprOfSource, other, if_neg Bool.false_ne_true, if_pos (startsWith_respNodeId step path),
    parseRespNode_respNodeId path plain, Option.map_some]

section Load

variable (display : Value → String)

/-- The source that an expression is bound to, where it is a reference. -/
def edgeSource : Value → Option String
  | .object fields =>
      match fields.lookup "$from" with
      | some field => some (nodeIdFor .src (propertyText display (some field)))
      | none =>
          (fields.lookup "$fromResponse").map (fun step =>
            respNodeId (propertyText display (some step))
              (propertyText display (fields.lookup "path")))
  | _ => none

variable {display} {kind other : TargetKind} {key name : String}

theorem edgeSource_from {fields : Data} {field : Value} (found : fields.lookup "$from" = some field) :
    edgeSource display (.object fields) =
      some (nodeIdFor .src (propertyText display (some field))) := by
  rw [edgeSource, found]

theorem edgeSource_response {fields : Data} {step : Value} (absent : fields.lookup "$from" = none)
    (found : fields.lookup "$fromResponse" = some step) :
    edgeSource display (.object fields) =
      some (respNodeId (propertyText display (some step))
        (propertyText display (fields.lookup "path"))) := by
  rw [edgeSource, absent, found]
  rfl

private theorem edgeSource_none {fields : Data} (absent : fields.lookup "$from" = none)
    (missing : fields.lookup "$fromResponse" = none) :
    edgeSource display (.object fields) = none := by
  rw [edgeSource, absent, missing]
  rfl

theorem hasNode_bindExpr (index : Nat) (loading : Loading) (expr : Value) :
    hasNode (bindExpr display kind key index loading expr).nodes (nodeIdFor other.node name) =
      hasNode loading.nodes (nodeIdFor other.node name) := by
  unfold bindExpr
  split
  next fields =>
      split
      · rfl
      · split
        next step _ =>
            simp only
            split
            · rfl
            · -- the node of a response is no target
              rw [hasNode_append, hasNode_single, makeRespNode,
                beq_eq_false_iff_ne.mpr (respNodeId_ne_target _ _ name other), Bool.or_false]
        next => rfl
  next => rfl

private theorem sources_bindExpr (index : Nat) (loading : Loading) (expr : Value) :
    sources (bindExpr display kind key index loading expr).edges (nodeIdFor other.node name) =
      sources loading.edges (nodeIdFor other.node name) ++
        if kind = other ∧ key = name then (edgeSource display expr).toList else [] := by
  unfold bindExpr
  split
  next fields =>
      split
      next field found =>
          rw [edgeSource_from found, sources_append, sources_single]
          simp only [target_iff, Option.toList_some]
      next absent =>
          split
          next step found =>
              rw [edgeSource_response absent found, sources_append, sources_single]
              simp only [target_iff, Option.toList_some]
          next missing =>
              rw [edgeSource_none absent missing, Option.toList_none, ite_self, List.append_nil]
  next other =>
      have plain : edgeSource display expr = none := by
        unfold edgeSource
        split
        next fields => exact absurd rfl (other fields)
        next => rfl
      rw [plain, Option.toList_none, ite_self, List.append_nil]

theorem hasNode_bindExprs (index : Nat) (loading : Loading) (exprs : List Value) :
    hasNode (bindExprs display kind key index loading exprs).nodes (nodeIdFor other.node name) =
      hasNode loading.nodes (nodeIdFor other.node name) := by
  induction exprs generalizing index loading with
  | nil => rfl
  | cons expr rest ih => rw [bindExprs, ih, hasNode_bindExpr]

private theorem sources_bindExprs (index : Nat) (loading : Loading) (exprs : List Value) :
    sources (bindExprs display kind key index loading exprs).edges (nodeIdFor other.node name) =
      sources loading.edges (nodeIdFor other.node name) ++
        if kind = other ∧ key = name then exprs.filterMap (edgeSource display) else [] := by
  induction exprs generalizing index loading with
  | nil => rw [bindExprs, List.filterMap_nil, ite_self, List.append_nil]
  | cons expr rest ih =>
      rw [bindExprs, ih, sources_bindExpr, List.append_assoc]
      by_cases own : kind = other ∧ key = name
      · rw [if_pos own, if_pos own, if_pos own]
        cases found : edgeSource display expr with
        | none => rw [List.filterMap_cons_none found, Option.toList_none, List.nil_append]
        | some source =>
            rw [List.filterMap_cons_some found, Option.toList_some, List.singleton_append]
      · rw [if_neg own, if_neg own, if_neg own, List.append_nil]

def loadedSources (display : Value → String) (values : Data) (name : String) : List String :=
  (((values.lookup name).map boundExprs).getD []).filterMap (edgeSource display)

private theorem hasNode_bindKeys (values : Data) (loading : Loading) (keys : List String) :
    hasNode (bindKeys display kind values loading keys).nodes (nodeIdFor other.node name) =
      (hasNode loading.nodes (nodeIdFor other.node name) ||
        decide (kind = other ∧ name ∈ keys)) := by
  induction keys generalizing loading with
  | nil => simp [bindKeys]
  | cons key rest ih =>
      rw [bindKeys, ih, hasNode_bindExprs, hasNode_append, hasNode_single, Bool.or_assoc]
      congr 1
      rw [makeFieldNode, Bool.eq_iff_iff, Bool.or_eq_true, beq_iff_eq, target_iff,
        decide_eq_true_iff, decide_eq_true_iff, List.mem_cons]
      constructor
      · rintro (⟨sameKind, rfl⟩ | ⟨sameKind, member⟩)
        · exact ⟨sameKind, Or.inl rfl⟩
        · exact ⟨sameKind, Or.inr member⟩
      · rintro ⟨sameKind, rfl | member⟩
        · exact Or.inl ⟨sameKind, rfl⟩
        · exact Or.inr ⟨sameKind, member⟩

private theorem sources_bindKeys (values : Data) (loading : Loading) {keys : List String}
    (distinct : keys.Nodup) :
    sources (bindKeys display kind values loading keys).edges (nodeIdFor other.node name) =
      sources loading.edges (nodeIdFor other.node name) ++
        if kind = other ∧ name ∈ keys then loadedSources display values name else [] := by
  induction keys generalizing loading with
  | nil => simp [bindKeys]
  | cons key rest ih =>
      rw [List.nodup_cons] at distinct
      rw [bindKeys, ih _ distinct.2, sources_bindExprs, List.append_assoc]
      congr 1
      by_cases here : kind = other ∧ key = name
      · obtain ⟨rfl, rfl⟩ := here
        rw [if_pos ⟨rfl, rfl⟩, if_neg (fun later => distinct.1 later.2), List.append_nil,
          if_pos ⟨rfl, List.mem_cons_self⟩, loadedSources]
      · rw [if_neg here, List.nil_append]
        have same : (kind = other ∧ name ∈ rest) ↔ (kind = other ∧ name ∈ key :: rest) := by
          rw [List.mem_cons]
          constructor
          · rintro ⟨sameKind, later⟩
            exact ⟨sameKind, Or.inr later⟩
          · rintro ⟨sameKind, first | later⟩
            · exact absurd ⟨sameKind, first.symm⟩ here
            · exact ⟨sameKind, later⟩
        simp only [same]

/-- A target of the canvas after loading: its node, and where its edges come from. -/
def StepUI.target (step : StepUI) (kind : TargetKind) (key : String) : Bool × List String :=
  (hasNode step.nodes (nodeIdFor kind.node key), sources step.edges (nodeIdFor kind.node key))

theorem hasNode_bind (step : Step) (loading : Loading) :
    hasNode (bind display kind step loading).nodes (nodeIdFor other.node name) =
      (hasNode loading.nodes (nodeIdFor other.node name) ||
        decide (kind = other ∧ name ∈ (bindings step kind).map Prod.fst)) :=
  hasNode_bindKeys ..

private theorem sources_bind {step : Step} (loading : Loading)
    (distinct : ((bindings step kind).map Prod.fst).Nodup) :
    sources (bind display kind step loading).edges (nodeIdFor other.node name) =
      sources loading.edges (nodeIdFor other.node name) ++
        if kind = other ∧ name ∈ (bindings step kind).map Prod.fst then
          loadedSources display (bindings step kind) name else [] :=
  sources_bindKeys _ _ distinct

private theorem mem_names_iff {values : Data} :
    key ∈ values.map Prod.fst ↔ (values.lookup key).isSome = true := by
  rw [← not_iff_not, Bool.not_eq_true, Option.isSome_eq_false_iff, Option.isNone_iff_eq_none,
    Data.lookup_none_iff]

theorem target_initStepUI {origin : Option Nat} {step : StepDef}
    (distinct : ∀ kind, ((bindings step.toStep kind).map Prod.fst).Nodup) :
    (initStepUI display origin step).target kind key =
      (((bindings step.toStep kind).lookup key).isSome,
        loadedSources display (bindings step.toStep kind) key) := by
  have absent (names : ((bindings step.toStep kind).lookup key).isSome = false) :
      loadedSources display (bindings step.toStep kind) key = [] := by
    rw [Option.isSome_eq_false_iff, Option.isNone_iff_eq_none] at names
    rw [loadedSources, names]
    rfl
  rw [StepUI.target, initStepUI]
  simp only [hasNode_bind, sources_bind _ (distinct _), mem_names_iff]
  cases kind <;> simpa [hasNode, sources, -List.lookup_isSome_iff] using absent

end Load

/-! ### Saving -/

section Save

variable {step : StepUI} {kind : TargetKind} {key : String}

theorem lookup_collectInto (out : Data) (nodes : List FieldNode) :
    (collectInto step kind out nodes).lookup key =
      (if hasNode nodes (nodeIdFor kind.node key) then pick kind (bucket step kind key)
        else none).or (out.lookup key) := by
  induction nodes generalizing out with
  | nil => rfl
  | cons node rest ih =>
      have split_ : hasNode (node :: rest) (nodeIdFor kind.node key) =
          (node.id == nodeIdFor kind.node key || hasNode rest (nodeIdFor kind.node key)) := rfl
      rw [collectInto, split_]
      by_cases known : kindOfNode node.id = some kind.node
      · rw [if_pos known]
        by_cases here : bareName node.id = key
        · have same : node.id = nodeIdFor kind.node key := nodeId_iff.mp ⟨known, here⟩
          rw [beq_iff_eq.mpr same, Bool.true_or, if_pos rfl, here]
          cases picked : pick kind (bucket step kind key) with
          | none => 
              simp only [ih, picked, ite_self]
          | some value =>
              simp only [ih, picked, Data.lookup_set, if_pos]
              split <;> rfl
        · have other : (node.id == nodeIdFor kind.node key) = false :=
            beq_eq_false_iff_ne.mpr (fun same => here (nodeId_iff.mpr same).2)
          rw [other, Bool.false_or]
          split
          · rw [ih, Data.lookup_set, if_neg (Ne.symm here)]
          · exact ih out
      · have other : (node.id == nodeIdFor kind.node key) = false :=
          beq_eq_false_iff_ne.mpr (fun same => known (nodeId_iff.mpr same).1)
        rw [if_neg known, other, Bool.false_or]
        exact ih out

/-- What is saved for a target depends only on its node and its edges. -/
def savedExpr (kind : TargetKind) (target : Bool × List String) : Option Value :=
  if target.1 then pick kind (target.2.filterMap exprOfSource) else none

private theorem lookup_collect :
    (collect step kind).lookup key = savedExpr kind (step.target kind key) := by
  rw [collect, lookup_collectInto, bucket_eq, List.lookup_nil, Option.or_none]
  rfl

theorem bindings_deriveStepJson :
    bindings (deriveStepJson step).toStep kind = collect step kind := by
  have restored (values : Data) : (unlessEmpty values).getD [] = values := by
    unfold unlessEmpty
    split
    next empty => exact (List.isEmpty_iff.mp empty).symm
    next => rfl
  cases kind with
  | dst => rfl
  | path => exact restored (collect step .path)
  | query => exact restored (collect step .query)
  | hdr => exact restored (collect step .hdr)

theorem lookup_deriveStepJson :
    (bindings (deriveStepJson step).toStep kind).lookup key =
      savedExpr kind (step.target kind key) := by
  rw [bindings_deriveStepJson, lookup_collect]

end Save

inductive StepPart
  | name
  | url
  | method
  | onFailure
  | entry (kind : TargetKind) (key : String)
  /-- Whether the step has a payload at all. -/
  | body
  | auth
  | idempotencyHeader
  | delivery

inductive TemplatePart
  | sourceType
  | sourceSchema
  | options
  | connectorId
  | preprocess
  | retry
  | concurrency
  | exportSpec

/-- `step origin part` is a part of the step of the loaded template at that place. -/
inductive Part
  | chain
  | template (part : TemplatePart)
  | step (origin : Nat) (part : StepPart)

def StepPart.targetId : StepPart → Option String
  | .entry kind key => some (nodeIdFor kind.node key)
  | _ => none

def StepPart.IsKey (kind : TargetKind) (name : String) (part : StepPart) : Prop :=
  part = .entry kind name ∨ (kind = .dst ∧ part = .body)

/-- The parts of a step that an edit touches; edits that are refused touch nothing. -/
def touchesStep (designer : Designer) (index : Nat) (step : StepUI) (part : StepPart) : Edit → Prop
  | .layout => False
  | .setActive _ => False
  | .removeSourceNodes _ => False
  | .removeStepNodes ids => index = designer.active ∧ ∃ id ∈ ids, part.targetId = some id
  | .removeEdges chosen =>
      index = designer.active ∧ ∃ edge ∈ chosen, part.targetId = some edge.target
  | .connectFields source target _ =>
      index = designer.active ∧ isValidFieldConnection source target = true ∧
        part.targetId = some target
  | .addSourceField _ => False
  | .addTargetKey kind name =>
      index = designer.active ∧ canAddKey designer kind name = true ∧ part.IsKey kind name
  | .addResponseRef _ _ => False
  | .addStep _ => False
  | .removeStep removed => index = removed ∧ canRemoveStep designer removed = true
  | .renameStep renamed newName =>
      index = renamed ∧ canRenameStep designer renamed newName = true ∧ part = .name
  | .setMethod _ => index = designer.active ∧ part = .method
  | .setUrl _ => index = designer.active ∧ part = .url
  | .setOnFailure _ => index = designer.active ∧ part = .onFailure
  | .applyOperation operation =>
      index = designer.active ∧ isAbsolute operation.url = true ∧
        (part = .url ∨ part = .method ∨ ∃ key ∈ operationKeys operation,
          hasNode step.nodes (nodeIdFor key.1.node key.2) = false ∧ part.IsKey key.1 key.2)
  | .applySample columns =>
      ∃ edge ∈ step.edges, survivesSample columns edge = false ∧ part.targetId = some edge.target
  | .suggest _ => True

def touchesChain (designer : Designer) : Edit → Prop
  | .addStep name => canAddStep designer name = true
  | .removeStep index => canRemoveStep designer index = true
  | .suggest _ => True
  | _ => False

def touchesSource (designer : Designer) : Edit → Prop
  | .removeSourceNodes ids => ∃ node ∈ designer.srcNodes, node.id ∈ ids
  | .addSourceField name => hasNode designer.srcNodes (nodeIdFor .src name) = false
  | .applySample _ => True
  | .suggest _ => True
  | _ => False

def touches (designer : Designer) (edit : Edit) : Part → Prop
  | .chain => touchesChain designer edit
  | .template .sourceSchema => touchesSource designer edit
  | .template _ => False
  | .step origin part =>
      ∃ index step, designer.steps[index]? = some step ∧ step.origin = some origin ∧
        touchesStep designer index step part edit

def StepPart.Shown : StepPart → Type
  | .name => String
  | .url => String
  | .method => String
  | .onFailure => Option OnFailure
  | .entry _ _ => Bool × List String
  | _ => Unit

def StepUI.look (step : StepUI) : (part : StepPart) → part.Shown
  | .name => step.name
  | .url => step.url
  | .method => step.method
  | .onFailure => step.onFailure
  | .entry kind key => step.target kind key
  | .body => ()
  | .auth => ()
  | .idempotencyHeader => ()
  | .delivery => ()

def Part.Shown : Part → Type
  | .chain => List (Option Nat)
  | .template .sourceSchema => List FieldNode
  | .template _ => Unit
  | .step _ part => List part.Shown

def shows (designer : Designer) : (part : Part) → part.Shown
  | .chain => designer.steps.map StepUI.origin
  | .template .sourceSchema => designer.srcNodes
  | .template .sourceType => ()
  | .template .options => ()
  | .template .connectorId => ()
  | .template .preprocess => ()
  | .template .retry => ()
  | .template .concurrency => ()
  | .template .exportSpec => ()
  | .step origin part => seen StepUI.origin (fun step => step.look part) origin designer.steps

def editor (display : Value → String) : Editor Designer Edit Part where
  apply := apply display
  touches := touches
  Shown := Part.Shown
  shows := shows

/-- Edges that go because they have the id of a chosen edge lead to the target of one. -/
def RemovesChosen (designer : Designer) : Edit → Prop
  | .removeEdges chosen =>
      ∀ step, designer.steps[designer.active]? = some step → ∀ edge ∈ step.edges,
        (∃ other ∈ chosen, other.id = edge.id) → ∃ other ∈ chosen, other.target = edge.target
  | _ => True

section Frame

variable {step : StepUI} {kind : TargetKind} {key : String}

theorem sources_filter {edges : List FlowEdge} {id : String} {keep : FlowEdge → Bool}
    (stays : ∀ edge ∈ edges, edge.target = id → keep edge = true) :
    sources (edges.filter keep) id = sources edges id := by
  rw [sources, sources, List.filter_filter]
  congr 1
  apply List.filter_congr
  intro edge member
  cases here : edge.target == id with
  | false => rw [Bool.false_and]
  | true => rw [stays edge member (beq_iff_eq.mp here), Bool.and_true]

private theorem hasNode_removeNodes {ids : List String} {nodes : List FieldNode} {id : String}
    (kept : id ∉ ids) : hasNode (removeNodes ids nodes) id = hasNode nodes id := by
  rw [hasNode, removeNodes, List.any_filter, hasNode]
  congr 1
  funext node
  cases here : node.id == id with
  | false => rw [Bool.and_false]
  | true =>
      have stays : ids.contains node.id = false := by
        rw [beq_iff_eq.mp here, List.contains_eq_mem, decide_eq_false_iff_not]
        exact kept
      rw [stays, Bool.not_false, Bool.true_and]

private theorem hasNode_pushKey {nodes : List FieldNode} {id : String}
    (pushed : TargetKind × String)
    (other : nodeIdFor pushed.1.node pushed.2 = id → hasNode nodes id = true) :
    hasNode (pushKey nodes pushed) id = hasNode nodes id := by
  unfold pushKey
  split
  · rfl
  next absent =>
      rw [hasNode_append, hasNode_single, makeFieldNode, beq_eq_false_iff_ne.mpr, Bool.or_false]
      intro same
      exact absent ((congrArg (hasNode nodes) same).trans (other same))

private theorem hasNode_foldl_pushKey {pushed : List (TargetKind × String)} {nodes : List FieldNode}
    {id : String}
    (others : ∀ own ∈ pushed, nodeIdFor own.1.node own.2 = id → hasNode nodes id = true) :
    hasNode (pushed.foldl pushKey nodes) id = hasNode nodes id := by
  induction pushed generalizing nodes with
  | nil => rfl
  | cons first rest ih =>
      have here := hasNode_pushKey first (others first List.mem_cons_self)
      rw [List.foldl_cons, ih, here]
      intro own member same
      rw [here]
      exact others own (List.mem_cons_of_mem first member) same

theorem sources_connectEdges {source target id : String} (now : Nat) {edges : List FlowEdge}
    (other : target ≠ id) : sources (connectEdges source target now edges) id = sources edges id := by
  rw [connectEdges, sources_append, sources_single, if_neg other, List.append_nil]
  apply sources_filter
  rintro edge - rfl
  have apart : (edge.target == target) = false := beq_eq_false_iff_ne.mpr (Ne.symm other)
  rw [survivesConnect, apart, Bool.and_false, Bool.and_false]
  rfl

theorem shows_updateStep {designer : Designer} {index origin : Nat} {part : StepPart}
    {change : StepUI → StepUI} (sameOrigin : ∀ step, (change step).origin = step.origin)
    (same : ∀ step, designer.steps[index]? = some step → step.origin = some origin →
      (change step).look part = step.look part) :
    shows (updateStep designer index change) (.step origin part) = shows designer (.step origin part) :=
  seen_modify change sameOrigin same

theorem look_of_target {other : StepUI} {part : StepPart} (sameName : other.name = step.name)
    (sameUrl : other.url = step.url) (sameMethod : other.method = step.method)
    (sameFailure : other.onFailure = step.onFailure)
    (sameTarget : ∀ kind key, part.targetId = some (nodeIdFor kind.node key) →
      other.target kind key = step.target kind key) : other.look part = step.look part := by
  cases part with
  | name => exact sameName
  | url => exact sameUrl
  | method => exact sameMethod
  | onFailure => exact sameFailure
  | entry kind key => exact sameTarget kind key rfl
  | body => rfl
  | auth => rfl
  | idempotencyHeader => rfl
  | delivery => rfl

theorem target_of_nodes {nodes : List FieldNode} (same : hasNode nodes (nodeIdFor kind.node key) =
    hasNode step.nodes (nodeIdFor kind.node key)) :
    ({ step with nodes := nodes } : StepUI).target kind key = step.target kind key :=
  congrArg (fun present => (present, sources step.edges (nodeIdFor kind.node key))) same

theorem target_of_edges {edges : List FlowEdge} (same : sources edges (nodeIdFor kind.node key) =
    sources step.edges (nodeIdFor kind.node key)) :
    ({ step with edges := edges } : StepUI).target kind key = step.target kind key :=
  congrArg (fun found => (hasNode step.nodes (nodeIdFor kind.node key), found)) same

theorem isKey_of_targetId {part : StepPart} {name : String}
    (same : part.targetId = some (nodeIdFor kind.node name)) : part.IsKey kind name := by
  cases part with
  | entry own key =>
      obtain ⟨rfl, rfl⟩ := target_iff.mp (Option.some.inj same)
      exact Or.inl rfl
  | _ => cases same

end Frame

section Framed

variable {display : Value → String} {designer : Designer} {origin : Nat} {part : StepPart}

theorem shows_apply_step (edit : Edit) (care : RemovesChosen designer edit)
    (untouched : ¬touches designer edit (.step origin part)) :
    shows (apply display designer edit) (.step origin part) = shows designer (.step origin part) := by
  have apart (index : Nat) (step : StepUI) (found : designer.steps[index]? = some step)
      (own : step.origin = some origin) : ¬touchesStep designer index step part edit :=
    fun touched => untouched ⟨index, step, found, own, touched⟩
  cases edit with
  | layout => rfl
  | setActive index => rfl
  | removeSourceNodes ids => rfl
  | removeStepNodes ids =>
      refine shows_updateStep (fun _ => rfl) fun step found own => ?_
      refine look_of_target rfl rfl rfl rfl fun kind key target => ?_
      refine target_of_nodes (hasNode_removeNodes fun member => ?_)
      exact apart _ step found own ⟨rfl, _, member, target⟩
  | removeEdges chosen =>
      refine shows_updateStep (fun _ => rfl) fun step found own => ?_
      refine look_of_target rfl rfl rfl rfl fun kind key target => ?_
      refine target_of_edges (sources_filter fun edge member here => ?_)
      rw [Bool.not_eq_true', ← Bool.not_eq_true]
      intro removed
      obtain ⟨other, chosenOther, sameId⟩ := List.any_eq_true.mp removed
      obtain ⟨hit, chosenHit, sameTarget⟩ :=
        care step found edge member ⟨other, chosenOther, beq_iff_eq.mp sameId⟩
      exact apart _ step found own ⟨rfl, hit, chosenHit, by rw [sameTarget, here, target]⟩
  | connectFields source target now =>
      rw [apply]
      split
      next valid =>
          refine shows_updateStep (fun _ => rfl) fun step found own => ?_
          refine look_of_target rfl rfl rfl rfl fun kind key isTarget => ?_
          refine target_of_edges (sources_connectEdges now fun same => ?_)
          exact apart _ step found own ⟨rfl, valid, same ▸ isTarget⟩
      next => rfl
  | addSourceField name =>
      rw [apply]
      split <;> rfl
  | addTargetKey kind name =>
      rw [apply]
      split
      next allowed =>
          refine shows_updateStep (fun _ => rfl) fun step found own => ?_
          refine look_of_target rfl rfl rfl rfl fun other key target => ?_
          refine target_of_nodes ?_
          rw [hasNode_append, hasNode_single, makeFieldNode, beq_eq_false_iff_ne.mpr, Bool.or_false]
          intro same
          exact apart _ step found own
            ⟨rfl, allowed, isKey_of_targetId (target.trans (congrArg some same.symm))⟩
      next => rfl
  | addResponseRef stepName path =>
      rw [apply]
      split
      next =>
          refine shows_updateStep (fun _ => rfl) fun step found own => ?_
          refine look_of_target rfl rfl rfl rfl fun kind key target => ?_
          refine target_of_nodes ?_
          rw [hasNode_append, hasNode_single, makeRespNode,
            beq_eq_false_iff_ne.mpr (respNodeId_ne_target stepName path key kind), Bool.or_false]
      next => rfl
  | addStep name =>
      rw [apply]
      split
      · exact seen_append_other (by nofun)
      · rfl
  | removeStep removed =>
      rw [apply]
      split
      next allowed =>
          exact seen_eraseIdx fun step found own => apart removed step found own ⟨rfl, allowed⟩
      next => rfl
  | renameStep renamed newName =>
      rw [apply]
      split
      next allowed =>
          refine shows_updateStep (fun _ => rfl) fun step found own => ?_
          cases part with
          | name => exact absurd ⟨rfl, allowed, rfl⟩ (apart renamed step found own)
          | _ => rfl
      next => rfl
  | setMethod method =>
      refine shows_updateStep (fun _ => rfl) fun step found own => ?_
      cases part with
      | method => exact absurd ⟨rfl, rfl⟩ (apart _ step found own)
      | _ => rfl
  | setUrl url =>
      refine shows_updateStep (fun _ => rfl) fun step found own => ?_
      cases part with
      | url => exact absurd ⟨rfl, rfl⟩ (apart _ step found own)
      | _ => rfl
  | setOnFailure onFailure =>
      refine shows_updateStep (fun _ => rfl) fun step found own => ?_
      cases part with
      | onFailure => exact absurd ⟨rfl, rfl⟩ (apart _ step found own)
      | _ => rfl
  | applyOperation operation =>
      rw [apply]
      split
      next absolute =>
          refine shows_updateStep (fun _ => rfl) fun step found own => ?_
          have clear := apart _ step found own
          cases part with
          | url => exact absurd ⟨rfl, absolute, Or.inl rfl⟩ clear
          | method => exact absurd ⟨rfl, absolute, Or.inr (Or.inl rfl)⟩ clear
          | entry kind key =>
              refine target_of_nodes (hasNode_foldl_pushKey fun pushed member same => ?_)
              rw [← Bool.not_eq_false]
              intro absent
              refine clear ⟨rfl, absolute, Or.inr (Or.inr ⟨pushed, member, same ▸ absent, ?_⟩)⟩
              exact isKey_of_targetId (congrArg some same.symm)
          | _ => rfl
      next => rfl
  | applySample columns =>
      refine @seen_map _ _ _ _ StepUI.origin (fun step => step.look part) origin
        designer.steps (fun step => { step with edges := step.edges.filter (survivesSample columns) })
        (fun _ => rfl) fun step member own => ?_
      refine look_of_target rfl rfl rfl rfl fun kind key target => ?_
      refine target_of_edges (sources_filter fun edge inEdges here => ?_)
      obtain ⟨index, found⟩ := List.mem_iff_getElem?.mp member
      rw [← Bool.not_eq_false]
      intro dropped
      exact apart index step found own ⟨edge, inEdges, dropped, by rw [here, target]⟩
  | suggest template =>
      -- a suggestion touches every step, so no step of this origin was there
      have before : seen StepUI.origin (fun step => step.look part) origin designer.steps = [] := by
        refine seen_nil_of_none fun step member own => ?_
        obtain ⟨index, found⟩ := List.mem_iff_getElem?.mp member
        exact apart index step found own trivial
      have after : seen StepUI.origin (fun step => step.look part) origin
          (template.schemaSteps.map (initStepUI display none)) = [] := by
        refine seen_nil_of_none fun step member own => ?_
        obtain ⟨loaded, -, rfl⟩ := List.mem_map.mp member
        cases own
      exact after.trans before.symm

theorem origins_updateStep (index : Nat) (change : StepUI → StepUI)
    (sameOrigin : ∀ step, (change step).origin = step.origin) :
    shows (updateStep designer index change) .chain = shows designer .chain :=
  tags_modify change sameOrigin designer.steps index

theorem shows_apply_chain (edit : Edit) (untouched : ¬touchesChain designer edit) :
    shows (apply display designer edit) .chain = shows designer .chain := by
  cases edit with
  | layout => rfl
  | setActive index => rfl
  | removeSourceNodes ids => rfl
  | removeStepNodes ids => exact origins_updateStep _ _ (fun _ => rfl)
  | removeEdges chosen => exact origins_updateStep _ _ (fun _ => rfl)
  | connectFields source target now =>
      rw [apply]
      split
      · exact origins_updateStep _ _ (fun _ => rfl)
      · rfl
  | addSourceField name =>
      rw [apply]
      split <;> rfl
  | addTargetKey kind name =>
      rw [apply]
      split
      · exact origins_updateStep _ _ (fun _ => rfl)
      · rfl
  | addResponseRef stepName path =>
      rw [apply]
      split
      · exact origins_updateStep _ _ (fun _ => rfl)
      · rfl
  | addStep name =>
      rw [touchesChain] at untouched
      rw [apply, if_neg untouched]
  | removeStep removed =>
      rw [touchesChain] at untouched
      rw [apply, if_neg untouched]
  | renameStep renamed newName =>
      rw [apply]
      split
      · exact origins_updateStep _ _ (fun _ => rfl)
      · rfl
  | setMethod method => exact origins_updateStep _ _ (fun _ => rfl)
  | setUrl url => exact origins_updateStep _ _ (fun _ => rfl)
  | setOnFailure onFailure => exact origins_updateStep _ _ (fun _ => rfl)
  | applyOperation operation =>
      rw [apply]
      split
      · exact origins_updateStep _ _ (fun _ => rfl)
      · rfl
  | applySample columns => exact List.map_map
  | suggest template => exact absurd trivial untouched

private theorem removeNodes_of_absent {ids : List String} {nodes : List FieldNode}
    (absent : ¬∃ node ∈ nodes, node.id ∈ ids) : removeNodes ids nodes = nodes := by
  refine List.filter_eq_self.mpr fun node member => ?_
  rw [Bool.not_eq_true', List.contains_eq_mem, decide_eq_false_iff_not]
  exact fun removed => absent ⟨node, member, removed⟩

private theorem shows_apply_source (edit : Edit) (untouched : ¬touchesSource designer edit) :
    (apply display designer edit).srcNodes = designer.srcNodes := by
  cases edit with
  | removeSourceNodes ids => exact removeNodes_of_absent untouched
  | addSourceField name =>
      have known : hasNode designer.srcNodes (nodeIdFor .src name) = true :=
        Bool.not_eq_false _ ▸ untouched
      rw [apply, if_pos known]
  | applySample columns => exact absurd trivial untouched
  | suggest template => exact absurd trivial untouched
  | _ => first
    | rfl
    | (rw [apply]; split <;> rfl)

theorem framed : (editor display).Framed RemovesChosen := by
  intro designer edit part care untouched
  cases part with
  | chain => exact shows_apply_chain edit untouched
  | template part =>
      cases part with
      | sourceSchema => exact shows_apply_source edit untouched
      | _ => rfl
  | step origin part => exact shows_apply_step edit care untouched

end Framed

/-! ### What the orchestrator executes -/

/-- A step as the orchestrator decodes it: an absent text is empty, and a map is what
it holds for each name. -/
@[ext]
structure ExecutionStep where
  name : String
  description : String
  mapping : Option (String → Option Value)
  type : String
  method : String
  url : String
  pathParams : String → Option Value
  queryParams : String → Option Value
  headers : String → Option Value
  auth : Option Auth
  idempotencyKey : Option Value
  idempotencyHeader : String
  delivery : Option Delivery
  onFailure : String

def onFailureText : Option OnFailure → String
  | none => ""
  | some .stop => "stop"
  | some .continue => "continue"

def decode (step : StepDef) : ExecutionStep where
  name := step.name
  description := step.description.getD ""
  mapping := step.mapping.map (fun payload key => payload.lookup key)
  type := step.destination.type
  method := step.destination.method
  url := step.destination.url
  pathParams := fun key => (step.destination.pathParams.getD []).lookup key
  queryParams := fun key => (step.destination.queryParams.getD []).lookup key
  headers := fun key => (step.destination.headers.getD []).lookup key
  auth := step.destination.auth
  idempotencyKey := step.destination.idempotencyKey
  idempotencyHeader := step.destination.idempotencyHeader.getD ""
  delivery := step.destination.delivery
  onFailure := onFailureText step.onFailure

def TemplateSchema.executionSteps (schema : TemplateSchema) : List ExecutionStep :=
  match schema.steps with
  | some (first :: rest) => (first :: rest).map decode
  | _ =>
      [decode
        { name := "main"
          mapping := schema.mapping
          destination := schema.destination.getD { type := "", method := "", url := "" } }]

def ExecutionStep.entry (step : ExecutionStep) : TargetKind → String → Option Value
  | .dst, key => step.mapping.bind (fun payload => payload key)
  | .path, key => step.pathParams key
  | .query, key => step.queryParams key
  | .hdr, key => step.headers key

def ExecutionStep.continuesOnFailure (step : ExecutionStep) : Bool := step.onFailure == "continue"

/-- What a delivery amounts to: the retention counts for keys and the lookup for lookups. -/
inductive DeliveryPolicy
  | idempotent (retentionHours : Int)
  | lookup (lookup : Option Lookup)
  | manual

def deliveryPolicy (method : String) (delivery : Option Delivery) : DeliveryPolicy :=
  let d : Destination := { type := "http", method := method, url := "", delivery := delivery }
  match d.effectiveDeliveryMode with
  | .idempotent => .idempotent ((delivery.map Delivery.retentionHours).getD 24)
  | .lookup => .lookup d.lookup
  | .manual => .manual
  | .other _ => .manual

structure RetryPolicy where
  maxAttempts : Nat
  initialIntervalMs : Nat
  backoffCoefficient : Nat
deriving DecidableEq

def positiveOr (default : Nat) : Option Nat → Nat
  | none => default
  | some value => if 0 < value then value else default

def retryPolicy (retry : Option Retry) : RetryPolicy where
  maxAttempts := positiveOr 5 (retry.bind Retry.maxAttempts)
  initialIntervalMs := positiveOr 1000 (retry.bind Retry.initialIntervalMs)
  backoffCoefficient := if retry.bind Retry.backoff = some .fixed then 1 else 2

def SameEntry (kind : TargetKind) (key : String) (loaded saved : Option Value) : Prop :=
  ∀ (env : RenderEnv) (ctx : Context),
    match kind with
    | .dst => saved.map (renderValue env ctx) = loaded.map (renderValue env ctx)
    | .query => saved.map (queryParam env ctx key) = loaded.map (queryParam env ctx key)
    | .path => saved.map (resolveValueExpr env ctx) = loaded.map (resolveValueExpr env ctx)
    | .hdr => saved.map (resolveValueExpr env ctx) = loaded.map (resolveValueExpr env ctx)

def StepPart.MeansSame (loaded saved : ExecutionStep) : StepPart → Prop
  | .name => saved.name = loaded.name
  | .url => saved.url = loaded.url
  | .method => saved.method = loaded.method
  | .onFailure => saved.continuesOnFailure = loaded.continuesOnFailure
  | .entry kind key => SameEntry kind key (loaded.entry kind key) (saved.entry kind key)
  | .body => saved.mapping.isSome = loaded.mapping.isSome
  | .auth => saved.auth = loaded.auth
  | .idempotencyHeader => saved.idempotencyHeader = loaded.idempotencyHeader
  | .delivery =>
      deliveryPolicy saved.method saved.delivery = deliveryPolicy saved.method loaded.delivery

/-- Parts that no program reads at execution are compared as they stand. -/
def TemplatePart.MeansSame (loaded saved : TemplateSchema) : TemplatePart → Prop
  | .sourceType => saved.source.type = loaded.source.type
  | .sourceSchema => saved.source.schema.getD [] = loaded.source.schema.getD []
  | .options => saved.source.options = loaded.source.options
  | .connectorId => saved.source.connectorId = loaded.source.connectorId
  | .preprocess => saved.preprocess = loaded.preprocess
  | .retry => retryPolicy saved.retry = retryPolicy loaded.retry
  | .concurrency => saved.concurrency.getD 0 = loaded.concurrency.getD 0
  | .exportSpec => saved.exportSpec.getD [] = loaded.exportSpec.getD []

/-- What no edit touched is as it was; a step of the loaded template is found by its
origin. -/
structure Preserved (loaded : TemplateSchema) (touched : Part → Prop) (designer : Designer)
    (saved : TemplateSchema) : Prop where
  template : ∀ part, ¬touched (.template part) → part.MeansSame loaded saved
  steps : ∀ origin step part, loaded.executionSteps[origin]? = some step →
    ¬touched (.step origin part) →
      ∃ (index : Nat) (shown : StepUI) (after : ExecutionStep),
        designer.steps[index]? = some shown ∧ shown.origin = some origin ∧
          saved.executionSteps[index]? = some after ∧ part.MeansSame step after
  unchanged : (∀ part, ¬touched part) → saved.executionSteps = loaded.executionSteps

def EditingPreserves (display : Value → String) (template : TemplateRow) (edits : List Edit) : Prop :=
  ∀ saved, saved? template ((editor display).run (load display template) edits) = some saved →
    Preserved template.schema ((editor display).Touched (load display template) edits)
      ((editor display).run (load display template) edits) saved

def isReference : Value → Bool
  | .object fields => (fields.lookup "$from").isSome || (fields.lookup "$fromResponse").isSome
  | _ => false

/-- An expression without references shows as an unmapped target, which blocks saving. -/
def hasReference (value : Value) : Bool := (boundExprs value).any isReference

/-- A value of a payload that is one reference, as the renderer reads it. -/
def ReferenceValue (display : Value → String) : Value → Prop
  | .object fields =>
      match fields.lookup "$from", fields.lookup "$fromResponse" with
      | some (.text _), _ => True
      | none, some (.text _) => propertyText display (fields.lookup "path") = referencePath fields
      | _, _ => False
  | _ => False

def ReferenceList : Value → Prop
  | .list items => 2 ≤ items.length ∧ ∀ item ∈ items, isReference item = true
  | _ => True

def EntryFits (display : Value → String) (kind : TargetKind) (value : Value) : Prop :=
  hasReference value = true →
    match kind with
    | .dst => ReferenceValue display value
    | .query => ReferenceList value
    | .path => True
    | .hdr => True

def Spelled : Value → Prop
  | .object [("$from", .text _)] => True
  | .object [("$fromResponse", .text _), ("path", .text _)] => True
  | _ => False

def EntrySpelled (kind : TargetKind) (value : Value) : Prop :=
  hasReference value = true → Spelled value ∨
    ∃ items, kind = .query ∧ value = .list items ∧ 2 ≤ items.length ∧ ∀ item ∈ items, Spelled item

structure StepSpelled (step : StepDef) : Prop where
  description : step.description.getD "" = ""
  mapping : step.mapping ≠ none
  auth : step.destination.auth = none
  idempotencyKey : step.destination.idempotencyKey = none
  idempotencyHeader : step.destination.idempotencyHeader.getD "" = ""
  delivery : step.destination.delivery = none
  onFailure : step.onFailure ≠ some .stop
  entries : ∀ kind key value, (bindings step.toStep kind).lookup key = some value →
    EntrySpelled kind value

/-- The part of the step, under the method that the canvas has for it. -/
def StepPart.Fits (display : Value → String) (step : StepDef) (method : String) : StepPart → Prop
  | .entry kind key =>
      ∀ value, (bindings step.toStep kind).lookup key = some value → EntryFits display kind value
  | .body => step.mapping ≠ none
  | .auth => step.destination.auth = none
  | .idempotencyHeader => step.destination.idempotencyHeader.getD "" = ""
  | .delivery => deliveryPolicy method step.destination.delivery = deliveryPolicy method none
  | _ => True

structure TemplateFits (schema : TemplateSchema) : Prop where
  options : schema.source.options ≠ none
  connectorId : schema.source.connectorId = none
  retry : retryPolicy schema.retry = retryPolicy none
  concurrency : schema.concurrency.getD 0 = 0
  exportSpec : schema.exportSpec.getD [] = []

structure Represented (display : Value → String) (schema : TemplateSchema) (touched : Part → Prop)
    (designer : Designer) : Prop where
  template : TemplateFits schema
  source : ¬touched (.template .sourceSchema) →
    ∀ field ∈ schema.source.schema.getD [], nodeIdFor .src field.name ≠ hintId
  steps : ∀ origin step part, schema.schemaSteps[origin]? = some step →
    ¬touched (.step origin part) →
      ∀ shown ∈ designer.steps, shown.origin = some origin → part.Fits display step shown.method
  spelled : (∀ part, ¬touched part) → ∀ step ∈ schema.schemaSteps, StepSpelled step

def EditsFit (display : Value → String) (template : TemplateRow) (edits : List Edit) : Prop :=
  (editor display).Careful RemovesChosen (load display template) edits ∧
    Represented display template.schema ((editor display).Touched (load display template) edits)
      ((editor display).run (load display template) edits)

variable {value : Value}

section Accepted

variable {schema : TemplateSchema}

theorem validated (accepted : schema.accepted = true) :
    schema.ruleTemplate.fitsSchema = true ∧ Ordered [] schema.ruleTemplate.executionSteps := by
  unfold TemplateSchema.accepted at accepted
  split at accepted
  next tpl passed =>
      constructor
      · unfold validateTemplate at passed
        split at passed
        · cases passed
        next fits => exact (Bool.not_eq_false _).mp fits
      · have ordered := validateTemplate_ok passed
        exact ordered.1 ▸ ordered.2
  next => cases accepted

/-- The shape of an accepted template: one call, or a chain that is not empty. -/
inductive Shape (schema : TemplateSchema) : Prop
  | single (payload : Data) (destination : Destination) (mapping : schema.mapping = some payload)
      (call : schema.destination = some destination) (steps : schema.steps = none)
      (fits : destination.fitsSchema = true)
  | chain (first : StepDef) (rest : List StepDef) (steps : schema.steps = some (first :: rest))
      (fits : ∀ step ∈ first :: rest, step.toStep.fitsSchema = true)

theorem shape (accepted : schema.accepted = true) : Shape schema := by
  have fits := (validated accepted).1
  unfold RuleTemplate.fitsSchema at fits
  split at fits
  next payload destination mapping call steps =>
      exact .single payload destination mapping call (Option.map_eq_none_iff.mp steps) fits
  next steps mapping call chain =>
      obtain ⟨defs, same, rfl⟩ := Option.map_eq_some_iff.mp chain
      simp only [Bool.and_eq_true, decide_eq_true_eq, List.length_map] at fits
      cases defs with
      | nil => exact absurd fits.1.1 (by decide)
      | cons first rest =>
          refine .chain first rest same fun step member => ?_
          exact List.all_eq_true.mp fits.2 step.toStep (List.mem_map_of_mem member)
  next => cases fits

theorem toStep_schemaSteps (accepted : schema.accepted = true) :
    schema.schemaSteps.map StepDef.toStep = schema.ruleTemplate.executionSteps := by
  cases shape accepted with
  | single payload destination mapping call steps fits =>
      rw [TemplateSchema.schemaSteps, RuleTemplate.executionSteps, TemplateSchema.ruleTemplate,
        steps, mapping, call]
      rfl
  | chain first rest steps fits =>
      rw [TemplateSchema.schemaSteps, RuleTemplate.executionSteps, TemplateSchema.ruleTemplate, steps]
      rfl

private theorem executionSteps_eq (accepted : schema.accepted = true) :
    schema.executionSteps = schema.schemaSteps.map decode := by
  cases shape accepted with
  | single payload destination mapping call steps fits =>
      rw [TemplateSchema.schemaSteps, TemplateSchema.executionSteps, steps, mapping, call]
      rfl
  | chain first rest steps fits =>
      rw [TemplateSchema.schemaSteps, TemplateSchema.executionSteps, steps]

theorem destination_fits (accepted : schema.accepted = true) {step : StepDef}
    (member : step ∈ schema.schemaSteps) : step.destination.fitsSchema = true := by
  cases shape accepted with
  | single payload destination mapping call steps fits =>
      rw [TemplateSchema.schemaSteps, steps, call] at member
      cases List.mem_singleton.mp member
      exact fits
  | chain first rest steps fits =>
      rw [TemplateSchema.schemaSteps, steps] at member
      have whole := fits step member
      rw [Step.fitsSchema, Bool.and_eq_true] at whole
      exact whole.2

theorem bar_of_isStepName {name : String} (named : isStepName name = true) : '|' ∉ name.toList := by
  intro member
  unfold isStepName at named
  split at named
  next empty =>
      rw [empty] at member
      cases member
  next first rest spelled =>
      rw [Bool.and_eq_true, List.all_eq_true] at named
      rw [spelled] at member
      rcases List.mem_cons.mp member with rfl | later
      · exact absurd named.1 (by decide)
      · exact absurd (named.2 '|' later) (by decide)

theorem name_plain (accepted : schema.accepted = true) {step : StepDef}
    (member : step ∈ schema.schemaSteps) : '|' ∉ step.name.toList := by
  cases shape accepted with
  | single payload destination mapping call steps fits =>
      rw [TemplateSchema.schemaSteps, steps] at member
      cases List.mem_singleton.mp member
      exact @bar_of_isStepName "main" (by decide)
  | chain first rest steps fits =>
      rw [TemplateSchema.schemaSteps, steps] at member
      have whole := fits step member
      rw [Step.fitsSchema, Bool.and_eq_true] at whole
      exact bar_of_isStepName whole.1

private theorem reference_plain (accepted : schema.accepted = true) {step : StepDef}
    (member : step ∈ schema.schemaSteps) {name : String}
    (refers : name ∈ step.toStep.responseRefs) : '|' ∉ name.toList := by
  obtain ⟨earlier, later, split_⟩ := List.append_of_mem member
  have ordered := (validated accepted).2
  rw [← toStep_schemaSteps accepted, split_, List.map_append, List.map_cons] at ordered
  have known := ordered.references name refers
  rw [List.nil_append, List.map_map] at known
  obtain ⟨other, inEarlier, rfl⟩ := List.mem_map.mp known
  refine name_plain accepted ?_
  rw [split_]
  exact List.mem_append_left _ inEarlier

theorem mem_of_lookup {values : Data} {key : String}
    (found : values.lookup key = some value) : (key, value) ∈ values := by
  obtain ⟨before, after, same, -⟩ := List.lookup_eq_some_iff.mp found
  rw [same]
  exact List.mem_append_right _ List.mem_cons_self

theorem mem_responseRefs {step : Step} {kind : TargetKind} {key : String}
    (bound : (bindings step kind).lookup key = some value) {name : String}
    (refers : name ∈ collectResponseRefs value) : name ∈ step.responseRefs := by
  have member := mem_of_lookup bound
  rw [Step.responseRefs, List.mem_append]
  cases kind with
  | dst =>
      left
      rw [bindings] at member
      cases present : step.mapping with
      | none =>
          rw [present] at member
          cases member
      | some payload =>
          rw [present] at member
          exact mem_refs_of_field member refers
  | path =>
      right
      refine @mem_refs_of_params _ "pathParams" name _ (key, value) ?_ member refers
      intro entry inside
      simp [inside]
  | query =>
      right
      refine @mem_refs_of_params _ "queryParams" name _ (key, value) ?_ member refers
      intro entry inside
      simp [inside]
  | hdr =>
      right
      refine @mem_refs_of_params _ "headers" name _ (key, value) ?_ member refers
      intro entry inside
      simp [inside]

end Accepted

/-! ### The way of an expression onto the canvas and back -/

section RoundTrip

variable (display : Value → String)

def restore (display : Value → String) (expr : Value) : Option Value :=
  (edgeSource display expr).bind exprOfSource

def Plain (expr : Value) : Prop := ∀ name ∈ collectResponseRefs expr, '|' ∉ name.toList

theorem restore_from {fields : Data} {field : String} (found : fields.lookup "$from" = some (.text field)) :
    restore display (.object fields) = some (.object [("$from", .text field)]) := by
  rw [restore, edgeSource_from found, Option.bind_some]
  exact exprOfSource_src field

theorem restore_response {fields : Data} {step : String} (absent : fields.lookup "$from" = none)
    (found : fields.lookup "$fromResponse" = some (.text step)) (plain : Plain (.object fields)) :
    restore display (.object fields) =
      some (.object [("$fromResponse", .text step),
        ("path", .text (propertyText display (fields.lookup "path")))]) := by
  have named : step ∈ collectResponseRefs (.object fields) := by
    rw [collectResponseRefs, ownReference, found]
    exact List.mem_append_left _ List.mem_cons_self
  rw [restore, edgeSource_response absent found, Option.bind_some]
  exact exprOfSource_resp _ (plain step named)

theorem edgeSource_isSome (expr : Value) : (edgeSource display expr).isSome = isReference expr := by
  unfold edgeSource isReference
  split
  next fields =>
      split
      next field found => rw [found, Option.isSome_some, Option.isSome_some, Bool.true_or]
      next absent => rw [absent, Option.isSome_map, Option.isSome_none, Bool.false_or]
  next => rfl

private theorem lookup_of_isResponseReference {fields : Data}
    (reference : isResponseReference fields = true) :
    ∃ step path, fields.lookup "$fromResponse" = some (.text step) ∧
      fields.lookup "path" = some (.text path) ∧
      ∀ key, key ≠ "$fromResponse" → key ≠ "path" → fields.lookup key = none := by
  rw [isResponseReference, Bool.and_eq_true, beq_iff_eq] at reference
  obtain ⟨two, found⟩ := reference
  split at found
  next step path foundStep foundPath =>
      refine ⟨step, path, foundStep, foundPath, fun key otherStep otherPath => ?_⟩
      rw [List.lookup_eq_none_iff]
      intro entry member
      rw [bne_iff_ne]
      rintro rfl
      have stepMember := mem_of_lookup foundStep
      have pathMember := mem_of_lookup foundPath
      match fields, two with
      | [first, second], _ =>
          -- three different names cannot be those of two fields
          simp only [List.mem_cons, List.not_mem_nil, or_false] at member stepMember pathMember
          have apart : ("$fromResponse" : String) ≠ "path" := by decide
          have stepName := stepMember.imp (congrArg Prod.fst) (congrArg Prod.fst)
          have pathName := pathMember.imp (congrArg Prod.fst) (congrArg Prod.fst)
          grind
  next => cases found

private theorem resolveValueExpr_congr {env : RenderEnv} {ctx : Context} {fields out : Data}
    (field : out.lookup "$from" = fields.lookup "$from")
    (literal : out.lookup "$literal" = fields.lookup "$literal")
    (response : out.lookup "$fromResponse" = fields.lookup "$fromResponse")
    (path : referencePath out = referencePath fields) :
    resolveValueExpr env ctx (.object out) = resolveValueExpr env ctx (.object fields) := by
  simp only [resolveValueExpr, field, literal, response, path]

theorem restored_valueExpr {expr : Value} (fits : isValueExpr expr = true)
    (reference : isReference expr = true) (plain : Plain expr) :
    ∃ fields out, expr = .object fields ∧ restore display expr = some (.object out) ∧
      ∀ (env : RenderEnv) (ctx : Context),
        resolveValueExpr env ctx (.object out) = resolveValueExpr env ctx expr := by
  unfold isValueExpr at fits
  split at fits
  next => cases reference
  next field => exact ⟨_, _, rfl, restore_from display rfl, fun _ _ => rfl⟩
  next => cases reference
  next fields _ _ =>
      obtain ⟨step, path, foundStep, foundPath, others⟩ := lookup_of_isResponseReference fits
      have noField := others "$from" (by decide) (by decide)
      have noLiteral := others "$literal" (by decide) (by decide)
      have restored := restore_response display noField foundStep plain
      refine ⟨fields, _, rfl, restored, fun env ctx => ?_⟩
      apply resolveValueExpr_congr
      · rw [noField]
        rfl
      · rw [noLiteral]
        rfl
      · rw [foundStep]
        rfl
      · simp only [referencePath, foundPath]
        rfl
  next => cases fits

private theorem restored_payload (fits : ReferenceValue display value) (plain : Plain value) :
    ∃ fields out, value = .object fields ∧ restore display value = some (.object out) ∧
      ∀ (env : RenderEnv) (ctx : Context),
        renderValue env ctx (.object out) = renderValue env ctx value := by
  unfold ReferenceValue at fits
  split at fits
  next fields =>
      refine ⟨fields, ?_⟩
      split at fits
      next field found =>
          refine ⟨_, rfl, restore_from display found, fun env ctx => ?_⟩
          have read : sigil fields = .rowField field := by rw [sigil, found]
          rw [renderValue, renderValue, read]
          rfl
      next step absent found =>
          refine ⟨_, rfl, restore_response display absent found plain, fun env ctx => ?_⟩
          have read : sigil fields = .response step (referencePath fields) := by
            rw [sigil, absent, found]
          rw [renderValue, renderValue, read, fits]
          rfl
      next => exact fits.elim
  next => exact fits.elim

theorem restored_spelled (spelled : Spelled value) (plain : Plain value) :
    restore display value = some value := by
  unfold Spelled at spelled
  split at spelled
  next field => exact restore_from display rfl
  next step path => exact restore_response display rfl rfl plain
  next => exact spelled.elim

private theorem restored_items {items : List Value} (key : String)
    (fits : ∀ item ∈ items, isValueExpr item = true)
    (references : ∀ item ∈ items, isReference item = true) (plain : ∀ item ∈ items, Plain item) :
    (items.filterMap (restore display)).length = items.length ∧
      ∀ (env : RenderEnv) (ctx : Context),
        queryItems env ctx key (items.filterMap (restore display)) = queryItems env ctx key items := by
  induction items with
  | nil => exact ⟨rfl, fun _ _ => rfl⟩
  | cons item rest ih =>
      obtain ⟨fields, out, -, restored, same⟩ := restored_valueExpr display
        (fits item List.mem_cons_self) (references item List.mem_cons_self)
        (plain item List.mem_cons_self)
      obtain ⟨lengths, meanings⟩ := ih
        (fun later member => fits later (List.mem_cons_of_mem item member))
        (fun later member => references later (List.mem_cons_of_mem item member))
        (fun later member => plain later (List.mem_cons_of_mem item member))
      rw [List.filterMap_cons_some restored]
      refine ⟨congrArg Nat.succ lengths, fun env ctx => ?_⟩
      rw [queryItems, queryItems, same, meanings]

private theorem restored_same {items : List Value}
    (same : ∀ item ∈ items, restore display item = some item) :
    items.filterMap (restore display) = items := by
  induction items with
  | nil => rfl
  | cons item rest ih =>
      rw [List.filterMap_cons_some (same item List.mem_cons_self),
        ih (fun later member => same later (List.mem_cons_of_mem item member))]

private theorem savedExpr_loaded (kind : TargetKind) {values : Data} {key : String}
    (bound : values.lookup key = some value) :
    savedExpr kind ((values.lookup key).isSome, loadedSources display values key) =
      pick kind ((boundExprs value).filterMap (restore display)) := by
  rw [savedExpr, loadedSources, bound, Option.isSome_some]
  simp only [if_true, Option.map_some, Option.getD_some, List.filterMap_filterMap]
  rfl

private theorem loadedSources_nil_iff {values : Data} {key : String}
    (bound : values.lookup key = some value) :
    loadedSources display values key = [] ↔ hasReference value = false := by
  rw [loadedSources, bound, Option.map_some, Option.getD_some, List.filterMap_eq_nil_iff,
    hasReference, List.any_eq_false]
  constructor
  · intro none item member
    rw [← edgeSource_isSome display, none item member]
    exact Bool.false_ne_true
  · intro others item member
    have other := others item member
    rw [← edgeSource_isSome display, Bool.not_eq_true, Option.isSome_eq_false_iff,
      Option.isNone_iff_eq_none] at other
    exact other

end RoundTrip

section Entries

variable {display : Value → String} {schema : TemplateSchema} {step : StepDef} {kind : TargetKind}
  {key : String} {value : Value}

theorem plain_items (accepted : schema.accepted = true) (member : step ∈ schema.schemaSteps)
    (bound : (bindings step.toStep kind).lookup key = some value) :
    ∀ item ∈ boundExprs value, Plain item := by
  intro item inside name refers
  refine reference_plain accepted member (mem_responseRefs bound ?_)
  unfold boundExprs at inside
  split at inside
  next items => exact mem_collectInItems inside refers
  next => exact List.mem_singleton.mp inside ▸ refers

private theorem boundExprs_of_isValueExpr (fits : isValueExpr value = true) :
    boundExprs value = [value] := by
  cases value with
  | list items => cases fits
  | _ => rfl

theorem paramsFit_lookup {fits : Value → Bool} {params : Option Data}
    (all : paramsFit fits params = true) (bound : (params.getD []).lookup key = some value) :
    fits value = true := List.all_eq_true.mp all (key, value) (mem_of_lookup bound)

private theorem fits_of_bound (accepted : schema.accepted = true)
    (member : step ∈ schema.schemaSteps)
    (bound : (bindings step.toStep kind).lookup key = some value) :
    match kind with
    | .dst => True
    | .query => isQueryExpr value = true
    | .path => isValueExpr value = true
    | .hdr => isValueExpr value = true := by
  have fits := destination_fits accepted member
  simp only [Destination.fitsSchema, Bool.and_eq_true] at fits
  obtain ⟨⟨⟨⟨⟨⟨-, -⟩, path⟩, query⟩, headers⟩, -⟩, -⟩ := fits
  cases kind with
  | dst => trivial
  | path => exact paramsFit_lookup path bound
  | query => exact paramsFit_lookup query bound
  | hdr => exact paramsFit_lookup headers bound

theorem pick_several {items : List Value} (several : 2 ≤ items.length) :
    pick .query items = some (.list items) := by
  match items, several with
  | first :: second :: rest, _ => rfl

private theorem isValueExpr_of_isQueryExpr (fits : isQueryExpr value = true)
    (single : ∀ items, value ≠ .list items) : isValueExpr value = true := by
  cases value with
  | list items => exact absurd rfl (single items)
  | _ => exact fits

theorem sameEntry_valueExpr (display : Value → String) (accepted : schema.accepted = true) (member : step ∈ schema.schemaSteps)
    (bound : (bindings step.toStep kind).lookup key = some value) (fits : isValueExpr value = true)
    (reference : hasReference value = true) :
    ∃ fields out, value = .object fields ∧
      pick kind ((boundExprs value).filterMap (restore display)) = some (.object out) ∧
      ∀ (env : RenderEnv) (ctx : Context),
        resolveValueExpr env ctx (.object out) = resolveValueExpr env ctx value := by
  have plain := plain_items accepted member bound
  have single := boundExprs_of_isValueExpr fits
  rw [hasReference, single, List.any_cons, List.any_nil, Bool.or_false] at reference
  rw [single] at plain ⊢
  obtain ⟨fields, out, isObject, restored, same⟩ :=
    restored_valueExpr display fits reference (plain value List.mem_cons_self)
  refine ⟨fields, out, isObject, ?_, same⟩
  rw [List.filterMap_cons_some restored]
  rfl

theorem sameEntry_bound (accepted : schema.accepted = true) (member : step ∈ schema.schemaSteps)
    (bound : (bindings step.toStep kind).lookup key = some value)
    (reference : hasReference value = true) (fits : EntryFits display kind value) :
    SameEntry kind key (some value) (pick kind ((boundExprs value).filterMap (restore display))) := by
  have plain := plain_items accepted member bound
  have ofSchema := fits_of_bound accepted member bound
  have known := fits reference
  cases kind with
  | dst =>
      have single : boundExprs value = [value] := by
        cases value with
        | list items => exact known.elim
        | _ => rfl
      rw [single] at plain ⊢
      obtain ⟨fields, out, -, restored, same⟩ :=
        restored_payload display known (plain value List.mem_cons_self)
      rw [List.filterMap_cons_some restored]
      intro env ctx
      exact congrArg some (same env ctx)
  | path =>
      obtain ⟨fields, out, -, picked, same⟩ :=
        sameEntry_valueExpr display accepted member bound ofSchema reference
      rw [picked]
      intro env ctx
      exact congrArg some (same env ctx)
  | hdr =>
      obtain ⟨fields, out, -, picked, same⟩ :=
        sameEntry_valueExpr display accepted member bound ofSchema reference
      rw [picked]
      intro env ctx
      exact congrArg some (same env ctx)
  | query =>
      by_cases isList : ∃ items, value = .list items
      · obtain ⟨items, rfl⟩ := isList
        obtain ⟨several, references⟩ := known
        obtain ⟨lengths, same⟩ := restored_items display key
          (List.all_eq_true.mp ofSchema) references plain
        rw [boundExprs, pick_several (lengths ▸ several)]
        intro env ctx
        exact congrArg some (same env ctx)
      · have single : isValueExpr value = true :=
          isValueExpr_of_isQueryExpr ofSchema fun items same => isList ⟨items, same⟩
        obtain ⟨fields, out, rfl, picked, same⟩ :=
          sameEntry_valueExpr display accepted member bound single reference
        rw [picked]
        intro env ctx
        simp only [Option.map_some, queryParam, same]

theorem savedExpr_mapped (kind : TargetKind) {values : Data}
    (bound : values.lookup key = some value)
    (mapped : (values.lookup key).isSome = true → loadedSources display values key ≠ []) :
    hasReference value = true ∧
      savedExpr kind ((values.lookup key).isSome, loadedSources display values key) =
        pick kind ((boundExprs value).filterMap (restore display)) := by
  constructor
  · rw [← Bool.not_eq_false]
    intro none
    rw [bound] at mapped
    exact mapped rfl ((loadedSources_nil_iff display bound).mpr none)
  · exact savedExpr_loaded display kind bound

private theorem sameEntry_loaded (accepted : schema.accepted = true)
    (member : step ∈ schema.schemaSteps)
    (mapped : ((bindings step.toStep kind).lookup key).isSome = true →
      loadedSources display (bindings step.toStep kind) key ≠ [])
    (fits : ∀ value, (bindings step.toStep kind).lookup key = some value →
      EntryFits display kind value) :
    SameEntry kind key ((bindings step.toStep kind).lookup key)
      (savedExpr kind (((bindings step.toStep kind).lookup key).isSome,
        loadedSources display (bindings step.toStep kind) key)) := by
  cases bound : (bindings step.toStep kind).lookup key with
  | none =>
      intro env ctx
      cases kind <;> rfl
  | some value =>
      obtain ⟨reference, saved⟩ := savedExpr_mapped kind bound mapped
      rw [bound] at saved
      rw [saved]
      exact sameEntry_bound accepted member bound reference (fits value bound)

private theorem boundExprs_of_spelled (spelled : Spelled value) : boundExprs value = [value] := by
  cases value with
  | list items => exact spelled.elim
  | _ => rfl

private theorem savedExpr_spelled (accepted : schema.accepted = true)
    (member : step ∈ schema.schemaSteps)
    (mapped : ((bindings step.toStep kind).lookup key).isSome = true →
      loadedSources display (bindings step.toStep kind) key ≠ [])
    (spelled : ∀ value, (bindings step.toStep kind).lookup key = some value → EntrySpelled kind value) :
    savedExpr kind (((bindings step.toStep kind).lookup key).isSome,
      loadedSources display (bindings step.toStep kind) key) =
        (bindings step.toStep kind).lookup key := by
  cases bound : (bindings step.toStep kind).lookup key with
  | none => rfl
  | some value =>
      obtain ⟨reference, saved⟩ := savedExpr_mapped kind bound mapped
      rw [bound] at saved
      rw [saved]
      have plain := plain_items accepted member bound
      rcases spelled value bound reference with single | ⟨items, rfl, rfl, several, each⟩
      · rw [boundExprs_of_spelled single] at plain ⊢
        rw [List.filterMap_cons_some (restored_spelled display single (plain value List.mem_cons_self))]
        rfl
      · have same := restored_same display fun item inside =>
          restored_spelled display (each item inside) (plain item inside)
        rw [boundExprs, same, pick_several several]

end Entries

/-! ### Saving after edits -/

section Saved

variable {display : Value → String} {template : TemplateRow} {designer : Designer}
  {saved : TemplateSchema}

theorem saved?_some (offered : saved? template designer = some saved) :
    validationErrors designer = [] ∧ deriveTemplateJson template designer = some saved := by
  rw [saved?, Option.ite_none_right_eq_some, Bool.and_eq_true, List.isEmpty_iff] at offered
  exact ⟨offered.1.2, offered.2⟩

theorem derived (offered : saved? template designer = some saved) :
    saved =
      { id := template.schema.id
        version := template.schema.version
        name := template.name
        source :=
          { type := template.schema.source.type
            schema := some (sourceFields designer.srcNodes)
            options := some (template.schema.source.options.getD defaultOptions) }
        preprocess := template.schema.preprocess
        steps := some (designer.steps.map deriveStepJson) } := by
  have made := (saved?_some offered).2
  unfold deriveTemplateJson at made
  split at made
  · cases made
  · exact (Option.some.inj made).symm

theorem executionSteps_saved (offered : saved? template designer = some saved)
    (several : designer.steps ≠ []) :
    saved.executionSteps = designer.steps.map (fun step => decode (deriveStepJson step)) := by
  rw [derived offered, TemplateSchema.executionSteps]
  cases present : designer.steps with
  | nil => exact absurd present several
  | cons first rest =>
      simp only [List.map_cons, List.map_map]
      rfl

theorem mapped_of_offered (offered : saved? template designer = some saved) {index : Nat}
    {step : StepUI} (found : designer.steps[index]? = some step) {kind : TargetKind} {key : String}
    (present : (step.target kind key).1 = true) : (step.target kind key).2 ≠ [] := by
  have none := (saved?_some offered).1
  rw [validationErrors, List.append_eq_nil_iff, List.flatten_eq_nil_iff] at none
  have clear : stepIssues index step = [] := by
    apply none.2
    rw [List.mem_iff_getElem?]
    exact ⟨index, by rw [List.getElem?_mapIdx, found, Option.map_some]⟩
  rw [stepIssues, List.append_eq_nil_iff] at clear
  have unmapped := clear.2
  rw [ite_eq_right_iff] at unmapped
  obtain ⟨node, member, same⟩ := List.any_eq_true.mp present
  have isTarget : node ∈ targets step := by
    refine List.mem_filter.mpr ⟨member, ?_⟩
    rw [beq_iff_eq.mp same, kindOfNode_nodeIdFor]
    cases kind <;> rfl
  have hasEdge : isMapped step node = true := by
    rw [← Bool.not_eq_false]
    intro missing
    have some_ : (targets step).any (fun node => !isMapped step node) = true :=
      List.any_eq_true.mpr ⟨node, isTarget, by rw [missing]; rfl⟩
    cases unmapped some_
  obtain ⟨edge, inEdges, leads⟩ := List.any_eq_true.mp hasEdge
  rw [beq_iff_eq.mp same] at leads
  exact List.ne_nil_of_mem (List.mem_map_of_mem (List.mem_filter.mpr ⟨inEdges, leads⟩))

theorem entry_decode (step : StepDef) (kind : TargetKind) (key : String) :
    (decode step).entry kind key = (bindings step.toStep kind).lookup key := by
  cases kind with
  | dst =>
      rw [ExecutionStep.entry, decode, bindings]
      cases step.mapping <;> rfl
  | path => rfl
  | query => rfl
  | hdr => rfl

private theorem entry_saved (step : StepUI) (kind : TargetKind) (key : String) :
    (decode (deriveStepJson step)).entry kind key = savedExpr kind (step.target kind key) := by
  rw [entry_decode, lookup_deriveStepJson]

end Saved

section Law

variable {display : Value → String} {template : TemplateRow} {edits : List Edit}
  {saved : TemplateSchema} {origin : Nat} {step : StepDef}

private theorem seen_load (display : Value → String)
    (found : template.schema.schemaSteps[origin]? = some step)
    (part : StepPart) :
    shows (load display template) (.step origin part) =
      [(initStepUI display (some origin) step).look part] := by
  have one := @seen_mapIdx StepDef StepUI part.Shown StepUI.origin (fun shown => shown.look part)
    (fun place own => initStepUI display (some place) own) (fun _ _ => rfl)
    template.schema.schemaSteps origin 0
  rw [found] at one
  exact one

theorem look_loaded (careful : (editor display).Careful RemovesChosen (load display template) edits)
    (found : template.schema.schemaSteps[origin]? = some step) {part : StepPart}
    (untouched : ¬(editor display).Touched (load display template) edits (.step origin part)) :
    seen StepUI.origin (fun shown => shown.look part) origin
        ((editor display).run (load display template) edits).steps =
      [(initStepUI display (some origin) step).look part] :=
  (framed.run careful untouched).trans (seen_load display found part)

private theorem look_of_origin (careful : (editor display).Careful RemovesChosen (load display template) edits)
    (found : template.schema.schemaSteps[origin]? = some step) {part : StepPart}
    (untouched : ¬(editor display).Touched (load display template) edits (.step origin part))
    {index : Nat} {shown : StepUI}
    (foundShown : ((editor display).run (load display template) edits).steps[index]? = some shown)
    (own : shown.origin = some origin) :
    shown.look part = (initStepUI display (some origin) step).look part := by
  have same := same_of_seen (look_loaded careful found untouched) foundShown own
  exact same

theorem meansSame {designer : Designer} {index : Nat} {shown : StepUI} {part : StepPart}
    (offered : saved? template designer = some saved)
    (member : step ∈ template.schema.schemaSteps) (found : designer.steps[index]? = some shown)
    (asLoaded : shown.look part = (initStepUI display (some origin) step).look part)
    (fits : part.Fits display step shown.method) :
    part.MeansSame (decode step) (decode (deriveStepJson shown)) := by
  cases part with
  | name => exact asLoaded
  | url => exact asLoaded
  | method => exact asLoaded
  | onFailure =>
      have same : shown.onFailure = step.onFailure := asLoaded
      rw [StepPart.MeansSame, ExecutionStep.continuesOnFailure, ExecutionStep.continuesOnFailure,
        decode, decode, deriveStepJson, same]
      rcases step.onFailure with _ | _ | _ <;> rfl
  | entry kind key =>
      have target : shown.target kind key = _ :=
        asLoaded.trans (target_initStepUI (template.distinct step member))
      have mapped := @mapped_of_offered template designer saved offered index shown found kind key
      rw [target] at mapped
      rw [StepPart.MeansSame, entry_decode, entry_saved, target]
      exact sameEntry_loaded template.accepted member mapped fits
  | body =>
      rw [StepPart.MeansSame, decode, decode, deriveStepJson, Option.isSome_map, Option.isSome_map]
      exact (Option.isSome_iff_ne_none.mpr fits).symm
  | auth => exact Eq.symm fits
  | idempotencyHeader => exact Eq.symm fits
  | delivery => exact Eq.symm fits

private theorem sourceFields_initSrcNodes {schema : TemplateSchema}
    (named : ∀ field ∈ schema.source.schema.getD [], nodeIdFor .src field.name ≠ hintId) :
    sourceFields (initSrcNodes schema) = schema.source.schema.getD [] := by
  have kept : (initSrcNodes schema).filter (fun node => node.id != hintId) = initSrcNodes schema := by
    rw [List.filter_eq_self]
    intro node member
    obtain ⟨field, inSchema, rfl⟩ := List.mem_map.mp member
    exact bne_iff_ne.mpr (named field inSchema)
  rw [sourceFields, kept, initSrcNodes, List.map_map]
  conv_rhs => rw [← List.map_id (schema.source.schema.getD [])]
  apply List.map_congr_left
  intro field _
  simp only [Function.comp_apply, makeFieldNode, bareName_nodeIdFor, Option.getD_some, id]

private theorem template_meansSame {designer : Designer} (fits : TemplateFits template.schema)
    (offered : saved? template designer = some saved)
    (part : TemplatePart)
    (source : part = .sourceSchema →
      sourceFields designer.srcNodes = template.schema.source.schema.getD []) :
    part.MeansSame template.schema saved := by
  rw [derived offered]
  cases part with
  | sourceType => rfl
  | sourceSchema => exact source rfl
  | options =>
      obtain ⟨options, present⟩ := Option.ne_none_iff_exists'.mp fits.options
      rw [TemplatePart.MeansSame, present]
      rfl
  | connectorId => exact fits.connectorId.symm
  | preprocess => rfl
  | retry => exact fits.retry.symm
  | concurrency => exact fits.concurrency.symm
  | exportSpec => exact fits.exportSpec.symm

theorem decode_saved {designer : Designer} {index : Nat} {shown : StepUI}
    (offered : saved? template designer = some saved)
    (member : step ∈ template.schema.schemaSteps) (found : designer.steps[index]? = some shown)
    (asLoaded : ∀ part, shown.look part = (initStepUI display (some origin) step).look part)
    (spelled : StepSpelled step) : decode (deriveStepJson shown) = decode step := by
  have entries (kind : TargetKind) (key : String) :
      (bindings (deriveStepJson shown).toStep kind).lookup key =
        (bindings step.toStep kind).lookup key := by
    have target : shown.target kind key = _ :=
      (asLoaded (.entry kind key)).trans (target_initStepUI (template.distinct step member))
    have mapped := @mapped_of_offered template designer saved offered index shown found kind key
    rw [target] at mapped
    rw [lookup_deriveStepJson, target]
    exact savedExpr_spelled template.accepted member mapped (spelled.entries kind key)
  obtain ⟨payload, present⟩ := Option.ne_none_iff_exists'.mp spelled.mapping
  have isHttp : step.destination.type = "http" := by
    have fits := destination_fits template.accepted member
    simp only [Destination.fitsSchema, Bool.and_eq_true, beq_iff_eq] at fits
    exact fits.1.1.1.1.1.1
  apply ExecutionStep.ext
  · exact asLoaded .name
  · exact spelled.description.symm
  · have payloads := entries .dst
    simp only [bindings, present, Option.getD_some, deriveStepJson] at payloads
    simp only [decode, present, deriveStepJson, Option.map_some]
    exact congrArg some (funext payloads)
  · exact isHttp.symm
  · exact asLoaded .method
  · exact asLoaded .url
  · exact funext (entries .path)
  · exact funext (entries .query)
  · exact funext (entries .hdr)
  · exact spelled.auth.symm
  · exact spelled.idempotencyKey.symm
  · exact spelled.idempotencyHeader.symm
  · exact spelled.delivery.symm
  · have same : shown.onFailure = step.onFailure := asLoaded .onFailure
    have notStop := spelled.onFailure
    simp only [decode, deriveStepJson, same]
    revert notStop
    rcases step.onFailure with _ | _ | _
    · exact fun _ => rfl
    · exact fun notStop => absurd rfl notStop
    · exact fun _ => rfl

private theorem origins_load (careful : (editor display).Careful RemovesChosen (load display template) edits)
    (untouched : ¬(editor display).Touched (load display template) edits .chain) :
    ((editor display).run (load display template) edits).steps.map StepUI.origin =
      (load display template).steps.map StepUI.origin :=
  framed.run careful untouched

private theorem origin_load (index : Nat) :
    ((load display template).steps.map StepUI.origin)[index]? =
      (template.schema.schemaSteps[index]?).map (fun _ => some index) := by
  rw [load, List.getElem?_map, List.getElem?_mapIdx, Option.map_map]
  rfl

private theorem schemaSteps_ne_nil (schema : TemplateSchema) : schema.schemaSteps ≠ [] := by
  unfold TemplateSchema.schemaSteps
  split
  · exact List.cons_ne_nil _ _
  · exact List.cons_ne_nil _ _

/-- Where the edits leave nothing alone that the canvas cannot represent, the parts that
they do not touch are preserved by saving. -/
theorem editing_preserves (display : Value → String) (template : TemplateRow) (edits : List Edit)
    (fits : EditsFit display template edits) : EditingPreserves display template edits := by
  intro saved offered
  obtain ⟨careful, represented⟩ := fits
  have executed := executionSteps_eq template.accepted
  constructor
  · intro part untouched
    refine template_meansSame represented.template offered part ?_
    rintro rfl
    have nodes : ((editor display).run (load display template) edits).srcNodes =
        initSrcNodes template.schema := framed.run careful untouched
    rw [nodes]
    exact sourceFields_initSrcNodes (represented.source untouched)
  · intro origin before part found untouched
    rw [executed, List.getElem?_map] at found
    obtain ⟨step, foundStep, rfl⟩ := Option.map_eq_some_iff.mp found
    have only := look_loaded careful foundStep untouched
    obtain ⟨index, shown, foundShown, own, asLoaded⟩ :=
      exists_of_seen (only ▸ List.mem_cons_self)
    refine ⟨index, shown, decode (deriveStepJson shown), foundShown, own, ?_, ?_⟩
    · have several : ((editor display).run (load display template) edits).steps ≠ [] :=
        List.ne_nil_of_mem (List.mem_of_getElem? foundShown)
      rw [executionSteps_saved offered several, List.getElem?_map, foundShown, Option.map_some]
    · exact meansSame offered (List.mem_of_getElem? foundStep) foundShown asLoaded
        (represented.steps origin step part foundStep untouched shown
          (List.mem_of_getElem? foundShown) own)
  · intro untouched
    have place (index : Nat) :
        (((editor display).run (load display template) edits).steps[index]?).map StepUI.origin =
          (template.schema.schemaSteps[index]?).map (fun _ => some index) := by
      rw [← List.getElem?_map, origins_load careful (untouched .chain), origin_load]
    have several : ((editor display).run (load display template) edits).steps ≠ [] := by
      intro empty
      have first := place 0
      rw [empty, List.getElem?_nil, Option.map_none, eq_comm, Option.map_eq_none_iff,
        List.getElem?_eq_none_iff] at first
      exact schemaSteps_ne_nil template.schema (List.length_eq_zero_iff.mp (Nat.le_zero.mp first))
    rw [executed, executionSteps_saved offered several]
    apply List.ext_getElem?
    intro index
    rw [List.getElem?_map, List.getElem?_map]
    have here := place index
    cases found : template.schema.schemaSteps[index]? with
    | none =>
        rw [found, Option.map_none, Option.map_eq_none_iff] at here
        rw [here]
        rfl
    | some step =>
        rw [found, Option.map_some] at here
        obtain ⟨shown, foundShown, own⟩ := Option.map_eq_some_iff.mp here
        have member := List.mem_of_getElem? found
        rw [foundShown, Option.map_some, Option.map_some]
        exact congrArg some (decode_saved offered member foundShown
          (fun part => look_of_origin careful found (untouched _) foundShown own)
          (represented.spelled untouched step member))

end Law

/-! ### Two templates -/

def objectText : Value → String := fun _ => "[object Object]"

def contactStep (auth : Option Auth) : StepDef where
  name := "create"
  mapping := some [("email", .object [("$from", .text "email")])]
  destination :=
    { type := "http", method := "POST", url := "https://api.example.com/contacts", auth := auth }

def contactSchema (auth : Option Auth) : TemplateSchema where
  id := "rt_contacts"
  version := 1
  name := "Contacts"
  source := { type := "csv", schema := some [⟨"email", "string"⟩], options := some [] }
  steps := some [contactStep auth]

theorem contact_distinct (auth : Option Auth) : ∀ step ∈ (contactSchema auth).schemaSteps,
    ∀ kind, ((bindings step.toStep kind).map Prod.fst).Nodup := by
  intro step member kind
  cases List.mem_singleton.mp member
  cases kind with
  | dst => exact List.nodup_singleton _
  | _ => exact List.nodup_nil

def contactTemplate : TemplateRow where
  id := 1
  name := "Contacts"
  version := 1
  schema := contactSchema none
  accepted := by decide +kernel
  distinct := contact_distinct none

def bearer : Auth where
  type := "bearer"
  secretRef := some "crm"
  headerName := none

def bearerTemplate : TemplateRow where
  id := 1
  name := "Contacts"
  version := 1
  schema := contactSchema (some bearer)
  accepted := by decide +kernel
  distinct := contact_distinct (some bearer)

theorem contact_entry {kind : TargetKind} {key : String}
    (bound : (bindings (contactStep none).toStep kind).lookup key = some value) :
    value = .object [("$from", .text "email")] := by
  cases kind with
  | dst =>
      have member := mem_of_lookup bound
      exact (Prod.mk.inj (List.mem_singleton.mp member)).2
  | _ => cases bound

/-- A template of row fields alone keeps everything when a node is dragged. -/
theorem contacts_kept :
    (saved? contactTemplate ((editor objectText).run (load objectText contactTemplate) [.layout])).isSome = true ∧
      EditingPreserves objectText contactTemplate [.layout] := by
  refine ⟨by decide +kernel, editing_preserves objectText contactTemplate [.layout] ⟨⟨trivial, trivial⟩, ?_⟩⟩
  constructor
  · exact ⟨nofun, rfl, rfl, rfl, rfl⟩
  · rintro - field member
    cases List.mem_singleton.mp member
    decide
  · rintro origin step part found - shown - -
    cases List.mem_singleton.mp (List.mem_of_getElem? found)
    cases part with
    | entry kind key =>
        intro value bound
        cases contact_entry bound
        intro _
        cases kind <;> trivial
    | body => exact nofun
    | name => trivial
    | url => trivial
    | method => trivial
    | onFailure => trivial
    | _ => rfl
  · rintro - step member
    cases List.mem_singleton.mp member
    refine ⟨rfl, nofun, rfl, rfl, rfl, rfl, nofun, fun kind key value bound _ => ?_⟩
    cases contact_entry bound
    exact Or.inl trivial

/-- Its credentials are gone after a node is dragged. -/
theorem bearer_lost :
    (saved? bearerTemplate ((editor objectText).run (load objectText bearerTemplate) [.layout])).isSome = true ∧
      ¬EditingPreserves objectText bearerTemplate [.layout] := by
  have offered : (saved? bearerTemplate
      ((editor objectText).run (load objectText bearerTemplate) [.layout])).isSome = true := by
    decide +kernel
  refine ⟨offered, fun law => ?_⟩
  obtain ⟨saved, same⟩ := Option.isSome_iff_exists.mp offered
  have untouched : ¬(editor objectText).Touched (load objectText bearerTemplate) [.layout]
      (.step 0 .auth) := by
    rintro (⟨_, _, _, _, impossible⟩ | impossible)
    · exact impossible
    · exact impossible
  obtain ⟨index, shown, after, found, -, foundAfter, kept⟩ :=
    (law saved same).steps 0 (decode (contactStep (some bearer))) .auth rfl untouched
  rw [executionSteps_saved same (List.ne_nil_of_mem (List.mem_of_getElem? found)),
    List.getElem?_map, found, Option.map_some] at foundAfter
  rw [← Option.some.inj foundAfter] at kept
  cases kept

end MigrationPlatform.Mapper
