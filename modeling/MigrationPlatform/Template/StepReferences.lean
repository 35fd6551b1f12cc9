/-
An accepted template never refers to a step that has not executed.

The API collects references by walking the serialized step, the renderer finds
them by its own order of sigils. What the renderer resolves, the walk has seen;
and where the steps before have succeeded, in the run or in one that is resumed,
their responses are in the context under their own names.
-/

import MigrationPlatform.Template.PyTier
import MigrationPlatform.Template.Validate
import MigrationPlatform.Workflow.ChainResume

namespace MigrationPlatform.Template

open MigrationPlatform.Connectors

/-- The renderer with the sandbox of a row, the encoder of payloads and the
verb `%q`. -/
structure Runtime where
  env : RenderEnv
  eval : Data → Value → Except String Value
  encode : Value → String
  quoted : String → String

variable (rt : Runtime)

def contextOf (chain : Workflow.RenderContext) : Context :=
  chain.responses.foldl (fun ctx response => ctx.addResponse rt.env response.1 response.2)
    { row := chain.row, responses := [] }

def PayloadError.text : PayloadError → String
  | .render cause => cause.text rt.quoted
  | .python problem => "python payload eval: " ++ problem

def Destination.effectiveDeliveryMode (d : Destination) : Delivery.DeliveryMode :=
  match d.delivery with
  | some delivery =>
      match delivery.mode with
      | .idempotent => .idempotent
      | .lookup => .lookup
      | .manual => .manual
  | none =>
      if ["GET", "HEAD", "PUT", "DELETE", "OPTIONS"].contains d.method then .idempotent
      else .manual

def Delivery.retentionHours (delivery : Delivery) : Int :=
  match delivery.idempotencyRetentionHours with
  | some hours => if 0 < hours then hours else 24
  | none => 24

def Destination.lookup (d : Destination) : Option Lookup :=
  d.delivery.bind Delivery.lookup

def Step.rendering (step : Step) (ctx : Context) : Workflow.Rendering :=
  { payload :=
      match (renderStepPayload (rt.eval ctx.row) rt.env step.mapping ctx).result with
      | .error problem => .error (problem.text rt)
      | .ok payload => .ok (rt.encode payload)
    destination :=
      match renderDestination rt.env step.destination ctx with
      | .error problem => .error (problem.text rt.quoted)
      | .ok rendered => .ok rendered.url
    lookup := step.destination.lookup.map (fun lookup =>
      match renderLookup rt.env lookup ctx with
      | .error problem => .error (problem.text rt.quoted)
      | .ok rendered =>
          .ok { method := lookup.method.getD "", url := rendered.url
                foundPath := lookup.foundPath }) }

def Step.chainStep (step : Step) : Workflow.Step :=
  { name := step.name
    method := step.destination.method
    hasBody := step.mapping.isSome
    mode := step.destination.effectiveDeliveryMode
    retentionHours := (step.destination.delivery.map Delivery.retentionHours).getD 0
    continuesOnFailure := step.onFailure == some .continue
    render := fun chain => step.rendering rt (contextOf rt chain) }

/-- It fails because a `$fromResponse` names a step that has not executed. -/
def MissesStep {Result : Type} (result : Except RenderError Result) : Prop :=
  ∃ problem name, result = .error problem ∧ problem.root = .notExecuted name

/-- One of the renderings of a step refers to a step that has not executed. -/
def Step.MissesStep (step : Step) (ctx : Context) : Prop :=
  (∃ problem name, (renderStepPayload (rt.eval ctx.row) rt.env step.mapping ctx).result =
      .error (.render problem) ∧ problem.root = .notExecuted name) ∨
    Template.MissesStep (renderDestination rt.env step.destination ctx) ∨
    ∃ lookup, step.destination.lookup = some lookup ∧
      Template.MissesStep (renderLookup rt.env lookup ctx)

theorem mem_collectInFields {fields : Data} {entry : String × Value} {name : String}
    (member : entry ∈ fields) (inside : name ∈ collectResponseRefs entry.2) :
    name ∈ collectInFields fields := by
  induction fields with
  | nil => cases member
  | cons first rest ih =>
      rcases List.mem_cons.mp member with same | later
      · rw [← same]
        exact List.mem_append_left _ inside
      · exact List.mem_append_right _ (ih later)

theorem mem_collectInItems {items : List Value} {item : Value} {name : String}
    (member : item ∈ items) (inside : name ∈ collectResponseRefs item) :
    name ∈ collectInItems items := by
  induction items with
  | nil => cases member
  | cons first rest ih =>
      rcases List.mem_cons.mp member with same | later
      · rw [← same]
        exact List.mem_append_left _ inside
      · exact List.mem_append_right _ (ih later)

theorem mem_refs_of_field {fields : Data} {entry : String × Value} {name : String}
    (member : entry ∈ fields) (inside : name ∈ collectResponseRefs entry.2) :
    name ∈ collectResponseRefs (.object fields) :=
  List.mem_append_right _ (mem_collectInFields member inside)

theorem mem_optionalField {key : String} {value : Option Value} {present : Value}
    (found : value = some present) : (key, present) ∈ optionalField key value := by
  rw [found]
  exact List.mem_singleton.mpr rfl

theorem mem_refs_of_params {fields : Data} {key name : String} {params : Option Data}
    {entry : String × Value}
    (serialized : optionalField key (params.map .object) ⊆ fields)
    (member : entry ∈ params.getD []) (inside : name ∈ collectResponseRefs entry.2) :
    name ∈ collectResponseRefs (.object fields) := by
  cases params with
  | none => cases member
  | some present =>
      have stands : (key, Value.object present) ∈ fields :=
        serialized (mem_optionalField rfl)
      exact mem_refs_of_field stands (mem_refs_of_field member inside)

variable {rt}

def Context.Has (ctx : Context) (names : List String) : Prop :=
  ∀ name ∈ names, ∃ response, ctx.responses.lookup name = some response

section Rendering

variable {env : RenderEnv} {ctx : Context}

theorem Context.Has.mono {names fewer : List String} (has : ctx.Has names)
    (included : ∀ name ∈ fewer, name ∈ names) : ctx.Has fewer := by
  intro name member
  exact has name (included name member)

theorem not_missesStep_ok {Result : Type} (value : Result) :
    ¬MissesStep (.ok value : Except RenderError Result) := by
  rintro ⟨problem, name, failed, _root⟩
  cases failed

theorem MissesStep.of_root {First Second : Type} {problem : RenderError}
    (misses : MissesStep (.error problem : Except RenderError Second)) {cause : RenderError}
    (same : problem.root = cause.root) :
    MissesStep (.error cause : Except RenderError First) := by
  obtain ⟨_, name, failed, root⟩ := misses
  cases failed
  exact ⟨cause, name, rfl, same.symm.trans root⟩

theorem resolveResponsePath_found {step path : String} (has : ctx.Has [step]) :
    ¬MissesStep (ctx.resolveResponsePath env step path) := by
  obtain ⟨response, found⟩ := has step List.mem_cons_self
  rintro ⟨problem, name, failed, root⟩
  unfold Context.resolveResponsePath at failed
  rw [found] at failed
  simp only at failed
  split at failed
  · cases failed
    cases root
  · split at failed
    · cases failed
      cases root
    · cases failed
    · cases failed

theorem ownReference_of_lookup {fields : Data} {step : String}
    (reference : List.lookup "$fromResponse" fields = some (.text step)) :
    ownReference fields = [step] := by
  unfold ownReference
  rw [reference]

private theorem ownReference_of_sigil {fields : Data} {step path : String}
    (found : sigil fields = .response step path) : ownReference fields = [step] := by
  unfold sigil at found
  split at found
  · cases found
  · split at found
    · rename_i reference
      cases found
      exact ownReference_of_lookup reference
    · split at found
      · cases found
      · split at found
        · cases found
        · cases found

private theorem renderItems_found {items : List Value}
    (found : ∀ item ∈ items, ¬MissesStep (renderValue env ctx item)) :
    ¬MissesStep (renderItems env ctx items) := by
  induction items with
  | nil => exact not_missesStep_ok _
  | cons item rest ih =>
      intro misses
      unfold renderItems at misses
      split at misses
      · rename_i problem failed
        apply found item List.mem_cons_self
        rw [failed]
        exact misses.of_root rfl
      · split at misses
        · rename_i problem failed
          apply ih (fun other member => found other (List.mem_cons_of_mem _ member))
          rw [failed]
          exact misses
        · exact not_missesStep_ok _ misses

private theorem renderFields_found {fields : Data}
    (found : ∀ entry ∈ fields, ¬MissesStep (renderValue env ctx entry.2)) :
    ¬MissesStep (renderFields env ctx fields) := by
  induction fields with
  | nil => exact not_missesStep_ok _
  | cons entry rest ih =>
      obtain ⟨key, value⟩ := entry
      intro misses
      unfold renderFields at misses
      split at misses
      · rename_i problem failed
        apply found (key, value) List.mem_cons_self
        change MissesStep (renderValue env ctx value)
        rw [failed]
        exact misses.of_root rfl
      · split at misses
        · rename_i problem failed
          apply ih (fun other member => found other (List.mem_cons_of_mem _ member))
          rw [failed]
          exact misses
        · exact not_missesStep_ok _ misses

theorem renderValue_found (value : Value) (has : ctx.Has (collectResponseRefs value)) :
    ¬MissesStep (renderValue env ctx value) := by
  induction value using Value.induction with
  | null => exact not_missesStep_ok _
  | bool value => exact not_missesStep_ok _
  | number text => exact not_missesStep_ok _
  | text value => exact not_missesStep_ok _
  | list items ih =>
      intro misses
      unfold renderValue at misses
      split at misses
      · rename_i problem failed
        apply renderItems_found (fun item member => ih item member
          (has.mono (fun name inside => mem_collectInItems member inside)))
        rw [failed]
        exact misses.of_root rfl
      · exact not_missesStep_ok _ misses
  | object fields ih =>
      intro misses
      unfold renderValue at misses
      split at misses
      · exact not_missesStep_ok _ misses
      · rename_i step path reference
        apply resolveResponsePath_found (has.mono _) misses
        intro name member
        apply List.mem_append_left
        rw [ownReference_of_sigil reference]
        exact member
      · exact not_missesStep_ok _ misses
      · exact not_missesStep_ok _ misses
      · split at misses
        · rename_i problem failed
          apply renderFields_found (fun entry member => ih entry member
            (has.mono (fun name inside => mem_refs_of_field member inside)))
          rw [failed]
          exact misses.of_root rfl
        · exact not_missesStep_ok _ misses

private theorem renderPayload_found {tpl : Data}
    (has : ctx.Has (collectResponseRefs (.object tpl))) :
    ¬MissesStep (renderPayload env ctx tpl) := by
  have values : ∀ entry ∈ tpl, ¬MissesStep (renderValue env ctx entry.2) := by
    intro entry member
    exact renderValue_found entry.2
      (has.mono (fun name inside => mem_refs_of_field member inside))
  clear has
  induction tpl with
  | nil => exact not_missesStep_ok _
  | cons entry rest ih =>
      obtain ⟨key, value⟩ := entry
      intro misses
      unfold renderPayload at misses
      split at misses
      · rename_i problem failed
        apply values (key, value) List.mem_cons_self
        change MissesStep (renderValue env ctx value)
        rw [failed]
        exact misses.of_root rfl
      · split at misses
        · rename_i problem failed
          apply ih (fun other member => values other (List.mem_cons_of_mem _ member))
          rw [failed]
          exact misses
        · exact not_missesStep_ok _ misses

theorem resolveValueExpr_found {expr : Value} (has : ctx.Has (collectResponseRefs expr)) :
    ¬MissesStep (resolveValueExpr env ctx expr) := by
  intro misses
  unfold resolveValueExpr at misses
  split at misses
  · exact not_missesStep_ok _ misses
  · rename_i fields
    split at misses
    · split at misses
      · exact not_missesStep_ok _ misses
      · exact not_missesStep_ok _ misses
      · exact not_missesStep_ok _ misses
    · split at misses
      · exact not_missesStep_ok _ misses
      · split at misses
        · rename_i step reference
          have collected : step ∈ collectResponseRefs (.object fields) := by
            apply List.mem_append_left
            unfold ownReference
            rw [reference]
            exact List.mem_cons_self
          split at misses
          · rename_i problem failed
            apply resolveResponsePath_found (has.mono _)
            · rw [failed]
              exact misses.of_root rfl
            · intro name member
              rw [List.mem_singleton.mp member]
              exact collected
          · obtain ⟨problem, name, failed, root⟩ := misses
            cases failed
            cases root
          · exact not_missesStep_ok _ misses
        · exact not_missesStep_ok _ misses
  · exact not_missesStep_ok _ misses

def Context.HasFor (ctx : Context) (params : Data) : Prop :=
  ∀ entry ∈ params, ctx.Has (collectResponseRefs entry.2)

theorem Context.HasFor.tail {entry : String × Value} {rest : Data}
    (has : ctx.HasFor (entry :: rest)) : ctx.HasFor rest := by
  intro other member
  exact has other (List.mem_cons_of_mem _ member)

theorem Context.HasFor.sorted {params : Data} (has : ctx.HasFor params) :
    ctx.HasFor (sortedEntries params) := by
  intro entry member
  exact has entry (List.mem_mergeSort.mp member)

private theorem substitutePathParams_found {params : Data} (has : ctx.HasFor params)
    (rawURL : String) :
    ¬MissesStep (substitutePathParams env ctx rawURL params) := by
  induction params generalizing rawURL with
  | nil => exact not_missesStep_ok _
  | cons entry rest ih =>
      obtain ⟨key, expr⟩ := entry
      intro misses
      unfold substitutePathParams at misses
      split at misses
      · rename_i problem failed
        apply resolveValueExpr_found (has (key, expr) List.mem_cons_self)
        rw [failed]
        exact misses.of_root rfl
      · obtain ⟨problem, name, failed, root⟩ := misses
        cases failed
        cases root
      · exact ih has.tail _ misses

private theorem queryItems_found {key : String} {items : List Value}
    (has : ctx.Has (collectInItems items)) : ¬MissesStep (queryItems env ctx key items) := by
  induction items with
  | nil => exact not_missesStep_ok _
  | cons item rest ih =>
      intro misses
      unfold queryItems at misses
      split at misses
      · rename_i problem failed
        apply resolveValueExpr_found
          (has.mono (fun name inside => mem_collectInItems List.mem_cons_self inside))
        rw [failed]
        exact misses.of_root rfl
      · split at misses
        · rename_i problem failed
          apply ih (has.mono (fun name inside => List.mem_append_right _ inside))
          rw [failed]
          exact misses
        · exact not_missesStep_ok _ misses

private theorem queryParam_found {key : String} {expr : Value}
    (has : ctx.Has (collectResponseRefs expr)) :
    ¬MissesStep (queryParam env ctx key expr) := by
  intro misses
  unfold queryParam at misses
  split at misses
  · exact queryItems_found has misses
  · split at misses
    · rename_i problem failed
      apply resolveValueExpr_found has
      rw [failed]
      exact misses.of_root rfl
    · exact not_missesStep_ok _ misses

private theorem queryParams_found {params : Data} (has : ctx.HasFor params) :
    ¬MissesStep (queryParams env ctx params) := by
  induction params with
  | nil => exact not_missesStep_ok _
  | cons entry rest ih =>
      obtain ⟨key, expr⟩ := entry
      intro misses
      unfold queryParams at misses
      split at misses
      · rename_i problem failed
        apply queryParam_found (has (key, expr) List.mem_cons_self)
        rw [failed]
        exact misses
      · split at misses
        · rename_i problem failed
          apply ih has.tail
          rw [failed]
          exact misses
        · exact not_missesStep_ok _ misses

private theorem renderHeaders_found {headers : Data} (has : ctx.HasFor headers) :
    ¬MissesStep (renderHeaders env ctx headers) := by
  induction headers with
  | nil => exact not_missesStep_ok _
  | cons entry rest ih =>
      obtain ⟨key, expr⟩ := entry
      intro misses
      unfold renderHeaders at misses
      split at misses
      · rename_i problem failed
        apply resolveValueExpr_found (has (key, expr) List.mem_cons_self)
        rw [failed]
        exact misses.of_root rfl
      · split at misses
        · rename_i problem failed
          apply ih has.tail
          rw [failed]
          exact misses
        · exact not_missesStep_ok _ misses

private theorem appendQuery_found {rawURL : String} {query : Data} (has : ctx.HasFor query) :
    ¬MissesStep (appendQuery env ctx rawURL query) := by
  intro misses
  unfold appendQuery at misses
  split at misses
  · exact not_missesStep_ok _ misses
  · split at misses
    · obtain ⟨problem, name, failed, root⟩ := misses
      cases failed
      cases root
    · split at misses
      · rename_i problem failed
        apply queryParams_found has.sorted
        rw [failed]
        exact misses.of_root rfl
      · exact not_missesStep_ok _ misses

theorem renderRequest_found {url : String} {pathParams query headers : Data}
    (hasPath : ctx.HasFor pathParams) (hasQuery : ctx.HasFor query)
    (hasHeaders : ctx.HasFor headers) :
    ¬MissesStep (renderRequest env ctx url pathParams query headers) := by
  intro misses
  unfold renderRequest at misses
  split at misses
  · rename_i problem failed
    apply substitutePathParams_found hasPath.sorted url
    rw [failed]
    exact misses.of_root rfl
  · split at misses
    · obtain ⟨problem, name, failed, root⟩ := misses
      cases failed
      cases root
    · split at misses
      · rename_i problem failed
        apply appendQuery_found hasQuery
        rw [failed]
        exact misses.of_root rfl
      · split at misses
        · rename_i problem failed
          apply renderHeaders_found hasHeaders
          rw [failed]
          exact misses.of_root rfl
        · exact not_missesStep_ok _ misses

theorem Context.Has.params {fields : Data} (has : ctx.Has (collectResponseRefs (.object fields)))
    (key : String) {params : Option Data}
    (serialized : optionalField key (params.map .object) ⊆ fields) :
    ctx.HasFor (params.getD []) := by
  intro entry member
  exact has.mono (fun name inside => mem_refs_of_params serialized member inside)

private theorem renderDestination_found {d : Destination}
    (has : ctx.Has (collectResponseRefs d.toValue)) :
    ¬MissesStep (renderDestination env d ctx) := by
  apply renderRequest_found
  · apply has.params "pathParams"
    intro entry member
    simp [member]
  · apply has.params "queryParams"
    intro entry member
    simp [member]
  · apply has.params "headers"
    intro entry member
    simp [member]

private theorem renderLookup_found {lookup : Lookup}
    (has : ctx.Has (collectResponseRefs lookup.toValue)) :
    ¬MissesStep (renderLookup env lookup ctx) := by
  apply renderRequest_found
  · apply has.params "pathParams"
    intro entry member
    simp [member]
  · apply has.params "queryParams"
    intro entry member
    simp [member]
  · apply has.params "headers"
    intro entry member
    simp [member]

theorem Context.Has.lookup {d : Destination} {lookup : Lookup}
    (has : ctx.Has (collectResponseRefs d.toValue)) (declared : d.lookup = some lookup) :
    ctx.Has (collectResponseRefs lookup.toValue) := by
  obtain ⟨delivery, delivered, found⟩ := Option.bind_eq_some_iff.mp declared
  apply has.mono
  intro name inside
  have within : ("delivery", delivery.toValue) ∈
      optionalField "delivery" (d.delivery.map Delivery.toValue) := by
    apply mem_optionalField
    rw [delivered]
    rfl
  have deeper : ("lookup", lookup.toValue) ∈
      optionalField "lookup" (delivery.lookup.map Lookup.toValue) := by
    apply mem_optionalField
    rw [found]
    rfl
  apply @mem_refs_of_field _ ("delivery", delivery.toValue) name (by simp [within])
  exact @mem_refs_of_field _ ("lookup", lookup.toValue) name (by simp [deeper]) inside

end Rendering

theorem Step.not_missesStep {step : Step} {ctx : Context} (has : ctx.Has step.responseRefs) :
    ¬step.MissesStep rt ctx := by
  have destination : ctx.Has (collectResponseRefs step.destination.toValue) :=
    has.mono (fun name inside => List.mem_append_right _ inside)
  rintro (⟨problem, name, failed, root⟩ | misses | ⟨lookup, declared, misses⟩)
  · unfold renderStepPayload at failed
    split at failed
    · cases failed
    · rename_i tpl mapped
      have payload : ctx.Has (collectResponseRefs (.object tpl)) := by
        apply has.mono
        intro reference inside
        unfold Step.responseRefs
        rw [mapped]
        exact List.mem_append_left _ inside
      split at failed
      · rename_i cause rendered
        cases failed
        exact renderPayload_found payload ⟨problem, name, rendered, root⟩
      · split at failed
        · cases failed
        · simp only at failed
          split at failed
          · cases failed
          · unfold decodePayload at failed
            split at failed
            · split at failed <;> cases failed
            · cases failed
            · cases failed
  · exact renderDestination_found destination misses
  · exact renderLookup_found (destination.lookup declared) misses

/-! ### The context of a chain -/

def parsedResponse (env : RenderEnv) (body : String) : Value :=
  if body = "" then .null else (env.parseBody body).getD .null

theorem lookup_addResponses (env : RenderEnv) (responses : List (String × String)) :
    ∀ ctx : Context, (responses.map Prod.fst).Nodup →
      (∀ response ∈ responses,
        (responses.foldl (fun ctx response => ctx.addResponse env response.1 response.2)
          ctx).responses.lookup response.1 = some (parsedResponse env response.2)) ∧
      ∀ name, name ∉ responses.map Prod.fst →
        (responses.foldl (fun ctx response => ctx.addResponse env response.1 response.2)
          ctx).responses.lookup name = ctx.responses.lookup name := by
  induction responses with
  | nil =>
      intro ctx _unique
      constructor
      · intro response impossible
        cases impossible
      · intro name _absent
        rfl
  | cons first rest ih =>
      intro ctx unique
      rw [List.map_cons, List.nodup_cons] at unique
      obtain ⟨found, others⟩ := ih (ctx.addResponse env first.1 first.2) unique.2
      have added : ∀ name, (ctx.addResponse env first.1 first.2).responses.lookup name =
          if name = first.1 then some (parsedResponse env first.2)
          else ctx.responses.lookup name := by
        intro name
        exact Data.lookup_set ctx.responses first.1 name _
      constructor
      · intro response member
        rcases List.mem_cons.mp member with same | later
        · rw [same, List.foldl_cons, others first.1 unique.1, added, if_pos rfl]
        · exact found response later
      · intro name absent
        rw [List.map_cons, List.mem_cons, not_or] at absent
        rw [List.foldl_cons, others name absent.2, added, if_neg absent.1]

private theorem contextOf_lookup {chain : Workflow.RenderContext}
    (apart : (chain.responses.map Prod.fst).Nodup) :
    ∀ response ∈ chain.responses,
      (contextOf rt chain).responses.lookup response.1 =
        some (parsedResponse rt.env response.2) :=
  (lookup_addResponses rt.env chain.responses _ apart).1

theorem chainSteps_names (steps : List Step) :
    (steps.map (Step.chainStep rt)).map Workflow.Step.name = steps.map Step.name := by
  rw [List.map_map]
  rfl

theorem split_at_name {steps earlier later : List Step} {step : Step}
    {before after : List Workflow.Step} {chained : Workflow.Step}
    (unique : (steps.map Step.name).Nodup) (stands : steps = earlier ++ step :: later)
    (split : steps.map (Step.chainStep rt) = before ++ chained :: after)
    (named : chained.name = step.name) : before = earlier.map (Step.chainStep rt) := by
  have names : before.map Workflow.Step.name ++ step.name :: after.map Workflow.Step.name =
      earlier.map Step.name ++ step.name :: later.map Step.name := by
    rw [← named, ← List.map_cons, ← List.map_append, ← split, chainSteps_names, stands,
      List.map_append, List.map_cons, named]
  rw [stands, List.map_append, List.map_cons] at unique
  have sameLength : before.length = earlier.length := by
    have apart := List.nodup_append.mp unique
    have missing : step.name ∉ earlier.map Step.name := by
      intro member
      exact apart.2.2 step.name member step.name List.mem_cons_self rfl
    have first : (earlier.map Step.name ++ step.name :: later.map Step.name).idxOf step.name =
        earlier.length := by
      rw [List.idxOf_append_of_notMem missing, List.idxOf_cons_self, List.length_map]
      omega
    have fromBefore : step.name ∉ before.map Workflow.Step.name := by
      intro member
      have whole : (before.map Workflow.Step.name ++
          step.name :: after.map Workflow.Step.name).Nodup := by
        rw [names]
        exact unique
      exact (List.nodup_append.mp whole).2.2 step.name member step.name List.mem_cons_self rfl
    rw [← names, List.idxOf_append_of_notMem fromBefore, List.idxOf_cons_self,
      List.length_map] at first
    omega
  rw [stands, List.map_append, List.map_cons] at split
  exact (List.append_inj_left split.symm (by rw [List.length_map]; exact sameLength))

/-- In every run of an accepted template on a row, new or resumed: step names
are unique, each response stands in the context of a step as its own step left
it, and a step before which all steps have succeeded misses none. -/
theorem accepted_steps_find_responses (rt : Runtime) (sha256Hex : String → String)
    (describe : Workflow.ActivityError → String) {tpl accepted : RuleTemplate}
    (passed : validateTemplate tpl = .ok accepted) (maxAttempts : Nat) (jobID : Int) (row : Row)
    (run : Workflow.RowRun) (envs : List Workflow.StepEnv) (persist : Option String)
    (result : Workflow.MigrationWorkflowResult) {processed : Workflow.RowExecution}
    (ran : Workflow.processOneRow sha256Hex describe maxAttempts jobID row
      (accepted.orchestratorSteps.map (Step.chainStep rt)) run envs persist result =
        some processed) :
    (accepted.orchestratorSteps.map Step.name).Nodup ∧
      ∀ place ∈ Workflow.renderedAt run processed.executed.reverse
          (accepted.orchestratorSteps.map (Step.chainStep rt)) { row := row.data },
        (∀ response ∈ place.2.responses,
          (contextOf rt place.2).responses.lookup response.1 =
            some (parsedResponse rt.env response.2)) ∧
        ∀ earlier step later, accepted.orchestratorSteps = earlier ++ step :: later →
          place.1.name = step.name →
          (∀ before ∈ earlier,
            Workflow.Succeeded run processed.executed.reverse before.name) →
          ¬step.MissesStep rt (contextOf rt place.2) := by
  have same : tpl = accepted := validateTemplate_same passed
  subst same
  obtain ⟨_, ordered⟩ := validateTemplate_ok passed
  have unique := ordered.nodup
  refine ⟨unique, ?_⟩
  intro place member
  obtain ⟨shape, _⟩ := Workflow.processOneRow_ran ran
  have uniqueChain : ((tpl.orchestratorSteps.map (Step.chainStep rt)).map
      Workflow.Step.name).Nodup := by
    rw [chainSteps_names]
    exact unique
  obtain ⟨before, after, behind⟩ := Workflow.renderedAt_behind shape uniqueChain
    { row := row.data } List.nodup_nil (fun _ _ impossible => by cases impossible) place member
  have answered := @contextOf_lookup rt place.2 behind.apart
  refine ⟨answered, ?_⟩
  intro earlier step later stands named succeeded
  have placed := split_at_name unique stands behind.split named
  apply Step.not_missesStep
  intro reference referred
  rw [stands] at ordered
  have known := ordered.references reference referred
  rw [List.nil_append] at known
  obtain ⟨source, sourceMember, sourceNamed⟩ := List.mem_map.mp known
  have inChain : Step.chainStep rt source ∈ before := by
    rw [placed]
    exact List.mem_map_of_mem sourceMember
  have present := behind.answered _ inChain (succeeded source sourceMember)
  obtain ⟨response, responseMember, responseNamed⟩ := List.mem_map.mp present
  refine ⟨parsedResponse rt.env response.2, ?_⟩
  rw [← sourceNamed]
  change (contextOf rt place.2).responses.lookup (Step.chainStep rt source).name = _
  rw [← responseNamed]
  exact answered response responseMember

/-- An account, then a contact that names it by the id in the response. -/
def contactTemplate : RuleTemplate :=
  { steps := some
      [{ name := "account"
         mapping := some [("name", .object [("$from", .text "name")])]
         destination := { type := "http", method := "POST", url := "https://api/accounts" } },
       { name := "contact"
         mapping := some
          [("account", .object [("$fromResponse", .text "account"), ("path", .text "$.id")])]
         destination :=
          { type := "http", method := "POST", url := "https://api/contacts"
            headers := some [("X-Account", .object
              [("$fromResponse", .text "account"), ("path", .text "$.id")])] } }] }

def contactRuntime : Runtime :=
  { env :=
      { fraction := fun _ => none
        parseJSONPath := fun path =>
          if path = "$.id" then
            .ok (fun doc =>
              match doc with
              | .object fields => (fields.lookup "id").toList
              | _ => [])
          else .error "unknown path"
        parseBody := fun body =>
          if body = "\x7b\"id\":\"12\"\x7d" then some (.object [("id", .text "12")]) else none
        sprint := fun _ => ""
        parseURL := .ok
        withQuery := fun url _ => url }
    eval := fun _ _ => .error "no sandbox"
    encode := fun payload =>
      match payload with
      | .object [(key, .text value)] =>
          "\x7b\"" ++ key ++ "\":\"" ++ value ++ "\"\x7d"
      | _ => "\x7b\x7d"
    quoted := String.quote }

def contactSha256 (text : String) : String :=
  if text = "\x7b\"name\":\"Ada\"\x7d" then
    "88bab6d8f6dc68a877064d584cbb5b6c50e74f617ea50d81d3a53c2ee6ffbc4f"
  else if text = "7-3-account-\x7b\"name\":\"Ada\"\x7d" then
    "9f333e4cebfc037a700c949bb3118237a0333e928dc97a3f714fae7685d892a9"
  else if text = "\x7b\"account\":\"12\"\x7d" then
    "9534441c2f0649d7cfb5cfd55bfe77f5322d0ade15cd0a56588b7862271f286c"
  else if text = "7-3-contact-\x7b\"account\":\"12\"\x7d" then
    "0ab1ea96da7a487463e2c85763ff3afffac9aec791948fcd357d20221a607535"
  else ""

def contactRow (run : Workflow.RowRun) (envs : List Workflow.StepEnv) :
    Option Workflow.RowExecution :=
  Workflow.processOneRow contactSha256 Workflow.describeError 1 7 Workflow.namedRow
    (contactTemplate.orchestratorSteps.map (Step.chainStep contactRuntime)) run envs none {}

theorem contact_finds_account :
    ∃ processed, contactRow {} [Workflow.createdAccount, Workflow.createdContact] =
        some processed ∧
      processed.executed.map (fun execution => execution.record.request) =
        [some "\x7b\"account\":\"12\"\x7d", some "\x7b\"name\":\"Ada\"\x7d"] ∧
      (contactTemplate.orchestratorSteps.map Step.name).Nodup ∧
      ∀ place ∈ Workflow.renderedAt {} processed.executed.reverse
          (contactTemplate.orchestratorSteps.map (Step.chainStep contactRuntime))
          { row := Workflow.namedRow.data },
        ∀ response ∈ place.2.responses,
          (contextOf contactRuntime place.2).responses.lookup response.1 =
            some (parsedResponse contactRuntime.env response.2) := by
  have accepted : validateTemplate contactTemplate = .ok contactTemplate := by
    have passed : (validateTemplate contactTemplate).isOk = true := by decide +kernel
    cases checked : validateTemplate contactTemplate with
    | error problem =>
        rw [checked] at passed
        cases passed
    | ok same => rw [← validateTemplate_same checked]
  have requests : (contactRow {} [Workflow.createdAccount, Workflow.createdContact]).map
      (fun processed => processed.executed.map (fun execution => execution.record.request)) =
        some [some "\x7b\"account\":\"12\"\x7d", some "\x7b\"name\":\"Ada\"\x7d"] := by
    decide +kernel
  obtain ⟨processed, ran, made⟩ := Option.map_eq_some_iff.mp requests
  obtain ⟨unique, places⟩ := accepted_steps_find_responses contactRuntime contactSha256
    Workflow.describeError accepted 1 7 Workflow.namedRow {}
    [Workflow.createdAccount, Workflow.createdContact] none {} ran
  exact ⟨processed, ran, made, unique, fun place member => (places place member).1⟩

end MigrationPlatform.Template
