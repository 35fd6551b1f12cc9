/-
The graph of the Designer.

The source fields are shared by all steps; the other nodes and the edges belong to one
step each. In a well-formed graph the ids are unique, every edge joins a source field or
a response reference to a target, a target other than a query parameter has at most one
edge, and the responses are those of earlier steps. An edit keeps the graph well formed
where its condition holds of the state before it.
-/

import MigrationPlatform.Foundation.NamedChains
import MigrationPlatform.Template.DesignerLoss

namespace MigrationPlatform.Mapper

open MigrationPlatform.Connectors MigrationPlatform.Template

def nodeIds (nodes : List FieldNode) : List String := nodes.map FieldNode.id

/-- The graph of one step; `fields` has the ids of the source fields. -/
structure StepSound (fields : List String) (step : StepUI) : Prop where
  nodes : (nodeIds step.nodes).Nodup
  kinds : ∀ id ∈ nodeIds step.nodes,
    isTargetKind (kindOfNode id) = true ∨ (parseRespNode id).isSome = true
  edges : (step.edges.map FlowEdge.id).Nodup
  sourced : ∀ edge ∈ step.edges, edge.source ∈ fields ∧ edge.source ≠ hintId ∨
    edge.source ∈ nodeIds step.nodes ∧ kindOfNode edge.source = some .resp
  targeted : ∀ edge ∈ step.edges,
    edge.target ∈ nodeIds step.nodes ∧ isTargetKind (kindOfNode edge.target) = true
  single : ∀ id, kindOfNode id ≠ some .query → (sources step.edges id).length ≤ 1

def StepUI.RefersTo (step : StepUI) (name : String) : Prop :=
  ∃ id ∈ nodeIds step.nodes, ∃ parsed, parseRespNode id = some parsed ∧ parsed.step = name

structure WellFormed (designer : Designer) : Prop where
  fields : (nodeIds designer.srcNodes).Nodup
  fieldKinds : ∀ id ∈ nodeIds designer.srcNodes, kindOfNode id = some .src
  chain : NamedChains.Ordered StepUI.name StepUI.RefersTo [] designer.steps
  plain : ∀ name ∈ designer.steps.map StepUI.name, '|' ∉ name.toList
  steps : ∀ step ∈ designer.steps, StepSound (nodeIds designer.srcNodes) step

theorem hasNode_iff {nodes : List FieldNode} {id : String} :
    hasNode nodes id = true ↔ id ∈ nodeIds nodes := by
  simp [hasNode, nodeIds]

theorem not_hasNode_iff {nodes : List FieldNode} {id : String} :
    hasNode nodes id = false ↔ id ∉ nodeIds nodes := by
  rw [← hasNode_iff, Bool.not_eq_true]

theorem nodeIds_removeNodes (ids : List String) (nodes : List FieldNode) :
    nodeIds (removeNodes ids nodes) = (nodeIds nodes).filter (fun id => !ids.contains id) := by
  rw [nodeIds, removeNodes, nodeIds, List.filter_map]
  rfl

theorem mem_removeNodes {ids : List String} {nodes : List FieldNode} {id : String} :
    id ∈ nodeIds (removeNodes ids nodes) ↔ id ∈ nodeIds nodes ∧ id ∉ ids := by
  rw [nodeIds_removeNodes, List.mem_filter]
  simp

private theorem sources_sublist {edges kept : List FlowEdge} (part : kept.Sublist edges)
    (id : String) :
    (sources kept id).Sublist (sources edges id) :=
  (part.filter _).map _

section Steps

variable {fields : List String} {step : StepUI}

theorem StepSound.congr (sound : StepSound fields step) {other : StepUI}
    (nodes : other.nodes = step.nodes) (edges : other.edges = step.edges) :
    StepSound fields other := by
  obtain ⟨nodup, kinds, distinct, sourced, targeted, single⟩ := sound
  rw [← nodes] at nodup kinds sourced targeted
  rw [← edges] at distinct sourced targeted single
  exact ⟨nodup, kinds, distinct, sourced, targeted, single⟩

theorem StepSound.fewerEdges (sound : StepSound fields step) {kept : List FlowEdge}
    (part : kept.Sublist step.edges) :
    StepSound fields { step with edges := kept } where
  nodes := sound.nodes
  kinds := sound.kinds
  edges := sound.edges.sublist (part.map _)
  sourced edge member := sound.sourced edge (part.subset member)
  targeted edge member := sound.targeted edge (part.subset member)
  single id other := (sources_sublist part id).length_le.trans (sound.single id other)

theorem StepSound.addNode (sound : StepSound fields step) {node : FieldNode}
    (fresh : hasNode step.nodes node.id = false)
    (kind : isTargetKind (kindOfNode node.id) = true ∨ (parseRespNode node.id).isSome = true) :
    StepSound fields { step with nodes := step.nodes ++ [node] } := by
  have ids : nodeIds (step.nodes ++ [node]) = nodeIds step.nodes ++ [node.id] := List.map_append
  have kept : ∀ id ∈ nodeIds step.nodes, id ∈ nodeIds (step.nodes ++ [node]) := by
    intro id member
    rw [ids]
    exact List.mem_append_left _ member
  constructor
  · rw [ids, List.nodup_append_comm]
    exact List.nodup_cons.mpr ⟨not_hasNode_iff.mp fresh, sound.nodes⟩
  · intro id member
    rw [ids, List.mem_append, List.mem_singleton] at member
    rcases member with before | same
    · exact sound.kinds id before
    · rw [same]
      exact kind
  · exact sound.edges
  · intro edge member
    rcases sound.sourced edge member with field | ⟨node, response⟩
    · exact Or.inl field
    · exact Or.inr ⟨kept _ node, response⟩
  · intro edge member
    obtain ⟨node, target⟩ := sound.targeted edge member
    exact ⟨kept _ node, target⟩
  · exact sound.single

theorem StepSound.removeNodes (sound : StepSound fields step) {ids : List String}
    (free : ∀ edge ∈ step.edges,
      (kindOfNode edge.source = some .resp → edge.source ∉ ids) ∧ edge.target ∉ ids) :
    StepSound fields { step with nodes := Mapper.removeNodes ids step.nodes } := by
  constructor
  · rw [nodeIds_removeNodes]
    exact sound.nodes.filter _
  · intro id member
    exact sound.kinds id (mem_removeNodes.mp member).1
  · exact sound.edges
  · intro edge member
    rcases sound.sourced edge member with field | ⟨node, response⟩
    · exact Or.inl field
    · exact Or.inr ⟨mem_removeNodes.mpr ⟨node, (free edge member).1 response⟩, response⟩
  · intro edge member
    obtain ⟨node, target⟩ := sound.targeted edge member
    exact ⟨mem_removeNodes.mpr ⟨node, (free edge member).2⟩, target⟩
  · exact sound.single

theorem StepSound.otherFields (sound : StepSound fields step) {others : List String}
    (kept : ∀ edge ∈ step.edges, edge.source ∈ fields → edge.source ∈ others) :
    StepSound others step where
  nodes := sound.nodes
  kinds := sound.kinds
  edges := sound.edges
  sourced edge member := by
    rcases sound.sourced edge member with ⟨field, named⟩ | response
    · exact Or.inl ⟨kept edge member field, named⟩
    · exact Or.inr response
  targeted := sound.targeted
  single := sound.single

def connectId (source target : String) (now : Nat) : String :=
  "e-" ++ source ++ "-" ++ target ++ "-" ++ toString now

private theorem sources_connect {source target : String} (now : Nat) (edges : List FlowEdge)
    (single : kindOfNode target ≠ some .query) :
    sources (connectEdges source target now edges) target = [source] := by
  have gone : edges.filter (survivesConnect source target) =
      edges.filter (fun edge => !(edge.target == target)) := by
    apply List.filter_congr
    intro edge _
    have replaced : (kindOfNode target != some .query) = true := bne_iff_ne.mpr single
    rw [survivesConnect, replaced, Bool.true_and]
    cases edge.target == target <;> simp
  rw [connectEdges, sources_append, sources_single, if_pos rfl, gone, sources, List.filter_filter]
  simp

theorem StepSound.connect (sound : StepSound fields step) {source target : String}
    {now : Nat}
    (sourced : source ∈ fields ∧ source ≠ hintId ∨
      source ∈ nodeIds step.nodes ∧ kindOfNode source = some .resp)
    (targeted : target ∈ nodeIds step.nodes ∧ isTargetKind (kindOfNode target) = true)
    (fresh : ∀ edge ∈ step.edges, survivesConnect source target edge = true →
      edge.id ≠ connectId source target now) :
    StepSound fields { step with edges := connectEdges source target now step.edges } := by
  have rest := sound.fewerEdges (List.filter_sublist (p := survivesConnect source target))
  constructor
  · exact sound.nodes
  · exact sound.kinds
  · change ((connectEdges source target now step.edges).map FlowEdge.id).Nodup
    rw [connectEdges, List.map_append, List.nodup_append_comm]
    apply List.nodup_cons.mpr
    refine ⟨?_, rest.edges⟩
    intro member
    obtain ⟨edge, survives, same⟩ := List.mem_map.mp member
    obtain ⟨before, kept⟩ := List.mem_filter.mp survives
    exact fresh edge before kept same
  · intro edge member
    rcases List.mem_append.mp member with before | new
    · exact rest.sourced edge before
    · rw [List.mem_singleton.mp new]
      exact sourced
  · intro edge member
    rcases List.mem_append.mp member with before | new
    · exact rest.targeted edge before
    · rw [List.mem_singleton.mp new]
      exact targeted
  · intro id other
    by_cases same : target = id
    · subst same
      rw [sources_connect now step.edges other]
      exact le_refl 1
    · rw [sources_connectEdges now same]
      exact sound.single id other

end Steps

theorem kindOfNode_makeFieldNode (kind : NodeKind) (name : String) (fieldType : Option String) :
    kindOfNode (makeFieldNode kind name fieldType).id = some kind := kindOfNode_nodeIdFor kind name

theorem isTargetKind_node (kind : TargetKind) : isTargetKind (some kind.node) = true := by
  cases kind <;> rfl

theorem kindOfNode_respNodeId (step path : String) :
    kindOfNode (respNodeId step path) = some .resp := by
  rw [respNodeId_eq]
  exact kindOfNode_nodeIdFor .resp _

theorem resp_of_parsed {id : String} {parsed : ResponsePath} (found : parseRespNode id = some parsed) :
    kindOfNode id = some .resp := by
  unfold parseRespNode at found
  split at found
  next starts =>
      obtain ⟨rest, same⟩ := List.isPrefixOf_iff_prefix.mp starts
      have spelled : id = nodeIdFor .resp (String.ofList rest) := by
        rw [← String.toList_inj, nodeIdFor, String.toList_append, String.toList_ofList, ← same]
        rfl
      rw [spelled]
      exact kindOfNode_nodeIdFor .resp _
  next => cases found

variable {index : Nat}

private theorem isReferenced_iff {designer : Designer} {name : String} :
    isReferenced designer index name = true ↔
      ∃ other ∈ designer.steps.eraseIdx index, other.RefersTo name := by
  simp [isReferenced, StepUI.RefersTo, nodeIds, Option.any_eq_true]

theorem not_refersTo {designer : Designer} {name : String}
    (unreferenced : isReferenced designer index name = false) :
    ∀ other ∈ designer.steps.eraseIdx index, ¬other.RefersTo name := by
  intro other member refers
  rw [isReferenced_iff.mpr ⟨other, member, refers⟩] at unreferenced
  cases unreferenced

theorem StepUI.RefersTo.mono {step other : StepUI} {name : String} (refers : other.RefersTo name)
    (fewer : ∀ id ∈ nodeIds other.nodes, id ∈ nodeIds step.nodes) : step.RefersTo name := by
  obtain ⟨id, member, parsed, found, same⟩ := refers
  exact ⟨id, fewer id member, parsed, found, same⟩

theorem StepUI.RefersTo.of_append {step : StepUI} {node : FieldNode} {name : String}
    (refers : StepUI.RefersTo { step with nodes := step.nodes ++ [node] } name) :
    step.RefersTo name ∨ ∃ parsed, parseRespNode node.id = some parsed ∧ parsed.step = name := by
  obtain ⟨id, member, parsed, found, same⟩ := refers
  rw [nodeIds, List.map_append, List.mem_append] at member
  rcases member with before | new
  · exact Or.inl ⟨id, before, parsed, found, same⟩
  · rw [List.mem_singleton.mp new] at found
    exact Or.inr ⟨parsed, found, same⟩

/-! ### Edits of one step -/

section Edits

variable {designer : Designer}

theorem WellFormed.updateStep (formed : WellFormed designer)
    {change : StepUI → StepUI} (same : ∀ step, (change step).name = step.name)
    (refers : ∀ step, designer.steps[index]? = some step → ∀ name, (change step).RefersTo name →
      step.RefersTo name ∨ name ∈ (designer.steps.map StepUI.name).take index)
    (sound : ∀ step, designer.steps[index]? = some step →
      StepSound (nodeIds designer.srcNodes) step →
      StepSound (nodeIds designer.srcNodes) (change step)) :
    WellFormed (Mapper.updateStep designer index change) := by
  constructor
  · exact formed.fields
  · exact formed.fieldKinds
  · apply formed.chain.modify same
    intro step found name refered
    rcases refers step found name refered with before | earlier
    · exact formed.chain.before found before
    · exact earlier
  · intro name member
    rw [Mapper.updateStep, NamedChains.names_modify same] at member
    exact formed.plain name member
  · intro step member
    rcases NamedChains.mem_modify member with before | ⟨own, found, rfl⟩
    · exact formed.steps step before
    · exact sound own found (formed.steps own (List.mem_of_getElem? found))

theorem WellFormed.settings (formed : WellFormed designer)
    {change : StepUI → StepUI} (name : ∀ step, (change step).name = step.name)
    (nodes : ∀ step, (change step).nodes = step.nodes)
    (edges : ∀ step, (change step).edges = step.edges) :
    WellFormed (Mapper.updateStep designer index change) := by
  apply formed.updateStep name
  · intro step _ other refers
    left
    apply refers.mono
    intro id member
    rw [nodes] at member
    exact member
  · intro step _ sound
    exact sound.congr (nodes step) (edges step)

theorem WellFormed.fewerEdges (formed : WellFormed designer)
    {kept : List FlowEdge → List FlowEdge} (part : ∀ edges, (kept edges).Sublist edges) :
    WellFormed (Mapper.updateStep designer index
      (fun step => { step with edges := kept step.edges })) := by
  apply formed.updateStep
  · intro step
    rfl
  · intro step _ name refers
    exact Or.inl refers
  · intro step _ sound
    exact sound.fewerEdges (part step.edges)

theorem WellFormed.removeStepNodes (formed : WellFormed designer) {ids : List String}
    (free : ∀ step, designer.steps[index]? = some step → ∀ edge ∈ step.edges,
      (kindOfNode edge.source = some .resp → edge.source ∉ ids) ∧ edge.target ∉ ids) :
    WellFormed (Mapper.updateStep designer index
      (fun step => { step with nodes := removeNodes ids step.nodes })) := by
  apply formed.updateStep
  · intro step
    rfl
  · intro step _ name refers
    left
    apply refers.mono
    intro id member
    exact (mem_removeNodes.mp member).1
  · intro step found sound
    exact sound.removeNodes (free step found)

theorem WellFormed.addTarget (formed : WellFormed designer) (kind : TargetKind) (name : String)
    (fresh : ∀ step, designer.steps[index]? = some step →
      hasNode step.nodes (nodeIdFor kind.node name) = false) :
    WellFormed (Mapper.updateStep designer index
      (fun step => { step with nodes := step.nodes ++ [makeFieldNode kind.node name none] })) := by
  apply formed.updateStep
  · intro step
    rfl
  · intro step _ other refers
    rcases refers.of_append with before | ⟨parsed, found, _⟩
    · exact Or.inl before
    · have response := resp_of_parsed found
      rw [kindOfNode_makeFieldNode] at response
      cases kind <;> cases response
  · intro step found sound
    apply sound.addNode (fresh step found)
    left
    rw [kindOfNode_makeFieldNode]
    exact isTargetKind_node kind

theorem WellFormed.addResponse (formed : WellFormed designer) {stepName path : String}
    (earlier : stepName ∈ (designer.steps.map StepUI.name).take index)
    (fresh : ∀ step, designer.steps[index]? = some step →
      hasNode step.nodes (respNodeId stepName path) = false) :
    WellFormed (Mapper.updateStep designer index
      (fun step => { step with nodes := step.nodes ++ [makeRespNode stepName path] })) := by
  have plain : '|' ∉ stepName.toList := formed.plain stepName (List.mem_of_mem_take earlier)
  apply formed.updateStep
  · intro step
    rfl
  · intro step _ other refers
    rcases refers.of_append with before | ⟨parsed, found, same⟩
    · exact Or.inl before
    · rw [makeRespNode, parseRespNode_respNodeId path plain, Option.some.injEq] at found
      rw [← same, ← found]
      exact Or.inr earlier
  · intro step found sound
    apply sound.addNode (fresh step found)
    right
    rw [makeRespNode, parseRespNode_respNodeId path plain]
    rfl

theorem WellFormed.connect (formed : WellFormed designer) {index now : Nat}
    {source target : String}
    (joins : ∀ step, designer.steps[index]? = some step →
      (source ∈ nodeIds designer.srcNodes ∧ source ≠ hintId ∨
        source ∈ nodeIds step.nodes ∧ kindOfNode source = some .resp) ∧
      (target ∈ nodeIds step.nodes ∧ isTargetKind (kindOfNode target) = true) ∧
      ∀ edge ∈ step.edges, survivesConnect source target edge = true →
        edge.id ≠ connectId source target now) :
    WellFormed (Mapper.updateStep designer index
      (fun step => { step with edges := connectEdges source target now step.edges })) := by
  apply formed.updateStep
  · intro step
    rfl
  · intro step _ name refers
    exact Or.inl refers
  · intro step found sound
    obtain ⟨sourced, targeted, fresh⟩ := joins step found
    exact sound.connect sourced targeted fresh

theorem StepSound.pushKey {fields : List String} {step : StepUI} (sound : StepSound fields step)
    (key : TargetKind × String) :
    StepSound fields { step with nodes := Mapper.pushKey step.nodes key } := by
  unfold Mapper.pushKey
  split
  next => exact sound
  next absent =>
      apply sound.addNode
      · exact (Bool.not_eq_true _).mp absent
      · left
        rw [kindOfNode_makeFieldNode]
        exact isTargetKind_node key.1

private theorem StepSound.pushKeys {fields : List String} {step : StepUI}
    (sound : StepSound fields step)
    (keys : List (TargetKind × String)) :
    StepSound fields { step with nodes := keys.foldl Mapper.pushKey step.nodes } := by
  induction keys generalizing step with
  | nil => exact sound
  | cons key rest ih => exact ih (sound.pushKey key)

private theorem response_of_pushKeys {nodes : List FieldNode} {keys : List (TargetKind × String)}
    {id : String} (member : id ∈ nodeIds (keys.foldl pushKey nodes))
    (response : kindOfNode id = some .resp) : id ∈ nodeIds nodes := by
  induction keys generalizing nodes with
  | nil => exact member
  | cons key rest ih =>
      have inside := ih member
      unfold pushKey at inside
      split at inside
      next => exact inside
      next =>
          rw [nodeIds, List.map_append, List.mem_append] at inside
          rcases inside with before | new
          · exact before
          · rw [List.mem_singleton.mp new, kindOfNode_makeFieldNode] at response
            cases kind : key.1 <;> rw [kind] at response <;> cases response

theorem WellFormed.applyOperation (formed : WellFormed designer) (operation : Operation) :
    WellFormed (Mapper.updateStep designer index (fun step =>
      { step with
        url := operation.url
        method := operation.method
        nodes := (operationKeys operation).foldl pushKey step.nodes })) := by
  apply formed.updateStep
  · intro step
    rfl
  · intro step _ name refers
    left
    obtain ⟨id, member, parsed, found, same⟩ := refers
    exact ⟨id, response_of_pushKeys member (resp_of_parsed found), parsed, found, same⟩
  · intro step _ sound
    exact (sound.pushKeys (operationKeys operation)).congr rfl rfl

theorem WellFormed.addSource (formed : WellFormed designer) {name : String}
    {fieldType : Option String}
    (fresh : hasNode designer.srcNodes (nodeIdFor .src name) = false) {dirty : Bool} :
    WellFormed { designer with
      dirty := dirty, srcNodes := designer.srcNodes ++ [makeFieldNode .src name fieldType] } := by
  have ids : nodeIds (designer.srcNodes ++ [makeFieldNode .src name fieldType]) =
      nodeIds designer.srcNodes ++ [nodeIdFor .src name] := List.map_append
  constructor
  · change (nodeIds (designer.srcNodes ++ [makeFieldNode .src name fieldType])).Nodup
    rw [ids, List.nodup_append_comm]
    exact List.nodup_cons.mpr ⟨not_hasNode_iff.mp fresh, formed.fields⟩
  · intro id member
    rw [ids, List.mem_append, List.mem_singleton] at member
    rcases member with before | same
    · exact formed.fieldKinds id before
    · rw [same]
      exact kindOfNode_nodeIdFor .src name
  · exact formed.chain
  · exact formed.plain
  · intro step member
    apply (formed.steps step member).otherFields
    intro edge _ field
    rw [ids]
    exact List.mem_append_left _ field

theorem WellFormed.removeSources (formed : WellFormed designer) {ids : List String}
    (free : ∀ step ∈ designer.steps, ∀ edge ∈ step.edges,
      edge.source ∈ nodeIds designer.srcNodes → edge.source ∉ ids) {dirty : Bool} :
    WellFormed { designer with
      dirty := dirty, srcNodes := removeNodes ids designer.srcNodes } := by
  constructor
  · change (nodeIds (removeNodes ids designer.srcNodes)).Nodup
    rw [nodeIds_removeNodes]
    exact formed.fields.filter _
  · intro id member
    exact formed.fieldKinds id (mem_removeNodes.mp member).1
  · exact formed.chain
  · exact formed.plain
  · intro step member
    apply (formed.steps step member).otherFields
    intro edge inside field
    exact mem_removeNodes.mpr ⟨field, free step member edge inside field⟩

private theorem startsWith_of_src {id : String} (known : kindOfNode id = some .src) :
    startsWith id "src:" = true := by
  have starts : startsWith id NodeKind.src.prefixText = true := by
    simpa using List.find?_some known
  exact starts

theorem nodup_sourceIds {names : List String} (distinct : names.Nodup) :
    (names.map (nodeIdFor .src)).Nodup :=
  distinct.map (fun _ _ same => (nodeIdFor_inj same).2)

theorem WellFormed.sample (formed : WellFormed designer) {columns : List SourceField}
    (distinct : (columns.map SourceField.name).Nodup) {dirty : Bool} :
    WellFormed { designer with
      dirty := dirty
      srcNodes := columns.map (fun column => makeFieldNode .src column.name (some column.type))
      steps := designer.steps.map (fun step =>
        { step with edges := step.edges.filter (survivesSample columns) }) } := by
  have ids : nodeIds (columns.map (fun column => makeFieldNode .src column.name (some column.type))) =
      columns.map (fun column => nodeIdFor .src column.name) := by
    rw [nodeIds, List.map_map]
    rfl
  constructor
  · change (nodeIds (columns.map _)).Nodup
    rw [ids, ← Function.comp_def (nodeIdFor .src) SourceField.name, ← List.map_map]
    exact nodup_sourceIds distinct
  · intro id member
    rw [ids] at member
    obtain ⟨column, _, rfl⟩ := List.mem_map.mp member
    exact kindOfNode_nodeIdFor .src column.name
  · apply formed.chain.map
    · intro step
      rfl
    · intro step _ name refers
      exact refers
  · intro name member
    rw [List.map_map] at member
    exact formed.plain name member
  · intro step member
    obtain ⟨own, before, rfl⟩ := List.mem_map.mp member
    have fewer := (formed.steps own before).fewerEdges
      (List.filter_sublist (p := survivesSample columns))
    apply fewer.otherFields
    intro edge inside field
    have survives := (List.mem_filter.mp inside).2
    rw [survivesSample, startsWith_of_src (formed.fieldKinds _ field), Bool.not_true,
      Bool.false_or, List.contains_iff_mem] at survives
    rw [ids]
    exact survives

/-! ### Edits of the chain -/

theorem WellFormed.addStep (formed : WellFormed designer) {step : StepUI}
    (named : isStepName step.name = true) (fresh : step.name ∉ designer.steps.map StepUI.name)
    (nodes : step.nodes = []) (edges : step.edges = []) {active : Nat} {dirty : Bool} :
    WellFormed { designer with
      dirty := dirty, steps := designer.steps ++ [step], active := active } := by
  constructor
  · exact formed.fields
  · exact formed.fieldKinds
  · apply formed.chain.append
    · exact fresh
    · intro other refers
      obtain ⟨id, member, _⟩ := refers
      rw [nodes] at member
      cases member
  · intro name member
    rw [List.map_append, List.mem_append] at member
    rcases member with before | new
    · exact formed.plain name before
    · rw [List.mem_singleton.mp new]
      exact bar_of_isStepName named
  · intro other member
    rcases List.mem_append.mp member with before | new
    · exact formed.steps other before
    · have same := List.mem_singleton.mp new
      have empty : StepSound (nodeIds designer.srcNodes)
          { step with nodes := [], edges := [] } := by
        constructor <;> simp [nodeIds, sources]
      rw [same]
      exact empty.congr nodes edges

theorem WellFormed.removeStep (formed : WellFormed designer) {step : StepUI}
    (found : designer.steps[index]? = some step)
    (unreferenced : isReferenced designer index step.name = false) {active : Nat} {dirty : Bool} :
    WellFormed { designer with
      dirty := dirty, steps := designer.steps.eraseIdx index, active := active } := by
  constructor
  · exact formed.fields
  · exact formed.fieldKinds
  · exact formed.chain.eraseIdx found (not_refersTo unreferenced)
  · intro name member
    exact formed.plain name ((List.eraseIdx_sublist _ _).map _ |>.subset member)
  · intro other member
    exact formed.steps other (List.mem_of_mem_eraseIdx member)

theorem WellFormed.renameStep (formed : WellFormed designer) {step : StepUI}
    {newName : String} (found : designer.steps[index]? = some step)
    (named : isStepName newName = true)
    (fresh : newName ∉ (designer.steps.eraseIdx index).map StepUI.name)
    (unreferenced : isReferenced designer index step.name = false) :
    WellFormed (Mapper.updateStep designer index (fun step => { step with name := newName })) := by
  constructor
  · exact formed.fields
  · exact formed.fieldKinds
  · exact formed.chain.rename found (not_refersTo unreferenced) fresh (fun _ refers => refers)
  · intro name member
    obtain ⟨other, inside, rfl⟩ := List.mem_map.mp member
    rcases NamedChains.mem_modify inside with before | ⟨own, _, rfl⟩
    · exact formed.plain other.name (List.mem_map_of_mem before)
    · exact bar_of_isStepName named
  · intro other member
    rcases NamedChains.mem_modify member with before | ⟨own, ownFound, rfl⟩
    · exact formed.steps other before
    · exact (formed.steps own (List.mem_of_getElem? ownFound)).congr rfl rfl

end Edits

end MigrationPlatform.Mapper
