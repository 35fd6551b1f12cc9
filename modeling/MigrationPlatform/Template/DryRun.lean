/-
The preview of a payload without a call.

The API renders a mapping much as the orchestrator does, but looks for `$py`
before `$fromResponse` and `$literal`, and keeps the numbers of the template, which
the orchestrator decodes. What either program does with a mapping is a sketch with
the same places, and the two agree where no object has a `$py` next to one of the
others and the numbers survive. What the Python tier evaluates is read off the
payload that the orchestrator hands to it.
-/

import MigrationPlatform.Template.Validate
import MigrationPlatform.Template.PyTier
import MigrationPlatform.Template.PyEvaluation

namespace MigrationPlatform.Template

open MigrationPlatform.Connectors

def payloadMapping (holder : Value) : Data :=
  (((getKey holder "mapping").bind (fun mapping => getKey mapping "payload")).bind asObject).getD []

def extractSteps (template : Value) : List (String × Data) :=
  match getKey template "steps" with
  | some (.list items) =>
      items.map (fun item => (((getKey item "name").bind asStr).getD "step", payloadMapping item))
  | _ => [("main", payloadMapping template)]

def pyMarker (expr : String) : Value := .text ("<py: " ++ expr ++ ">")

def responseMarker (step path : String) : Value :=
  .text ("<response of " ++ step ++ ": " ++ path ++ ">")

mutual

def resolve (row : Value) : Value → Value
  | .object fields =>
      match (fields.lookup "$from").bind asStr with
      | some field => (getKey row field).getD .null
      | none =>
          match (fields.lookup "$py").bind asStr with
          | some expr => pyMarker expr
          | none =>
              match (fields.lookup "$fromResponse").bind asStr with
              | some step =>
                  responseMarker step (((fields.lookup "path").bind asStr).getD "$")
              | none =>
                  match fields.lookup "$literal" with
                  | some value => value
                  | none => .object (resolveFields row fields)
  | .list items => .list (resolveItems row items)
  | .null => .null
  | .bool value => .bool value
  | .number text => .number text
  | .text value => .text value

def resolveFields (row : Value) : List (String × Value) → List (String × Value)
  | [] => []
  | (key, value) :: rest => (key, resolve row value) :: resolveFields row rest

def resolveItems (row : Value) : List Value → List Value
  | [] => []
  | value :: rest => resolve row value :: resolveItems row rest

end

def renderPreview (mapping : Data) (row : Value) : Value := .object (resolveFields row mapping)

/-- What stands at a place of the payload: a value, an expression for the Python
tier with its object, or what an earlier response has. -/
inductive Slot
  | value (value : Value)
  | python (expr : String) (fields : Data)
  | response (step : String) (path : Option String)

inductive Sketch
  | slot (slot : Slot)
  | list (items : List Sketch)
  | object (fields : List (String × Sketch))

mutual

/-- The mapping with its sigils as slots; `classify` says which object is one. -/
def sketch (classify : Data → Option Slot) : Value → Sketch
  | .object fields =>
      match classify fields with
      | some slot => .slot slot
      | none => .object (sketchFields classify fields)
  | .list items => .list (sketchItems classify items)
  | .null => .slot (.value .null)
  | .bool value => .slot (.value (.bool value))
  | .number text => .slot (.value (.number text))
  | .text value => .slot (.value (.text value))

def sketchFields (classify : Data → Option Slot) : List (String × Value) → List (String × Sketch)
  | [] => []
  | (key, value) :: rest => (key, sketch classify value) :: sketchFields classify rest

def sketchItems (classify : Data → Option Slot) : List Value → List Sketch
  | [] => []
  | value :: rest => sketch classify value :: sketchItems classify rest

end

def declaredPath (fields : Data) : Option String := (fields.lookup "path").bind asStr

def previewSlot (row : Data) (fields : Data) : Option Slot :=
  match (fields.lookup "$from").bind asStr with
  | some field => some (.value ((row.lookup field).getD .null))
  | none =>
      match (fields.lookup "$py").bind asStr with
      | some expr => some (.python expr fields)
      | none =>
          match (fields.lookup "$fromResponse").bind asStr with
          | some step => some (.response step (declaredPath fields))
          | none => (fields.lookup "$literal").map .value

def renderSlot (row : Data) (fields : Data) : Option Slot :=
  match sigil fields with
  | .rowField field => some (.value ((row.lookup field).getD .null))
  | .response step _ => some (.response step (declaredPath fields))
  | .literal value => some (.value value)
  | .py => some (.python (((fields.lookup "$py").bind asStr).getD "") fields)
  | .plain => none

def previewSketch (row mapping : Data) : Sketch := .object (sketchFields (previewSlot row) mapping)

def renderSketch (row mapping : Data) : Sketch := .object (sketchFields (renderSlot row) mapping)

def Slot.preview : Slot → Value
  | .value own => own
  | .python expr _ => pyMarker expr
  | .response step path => responseMarker step (path.getD "$")

mutual

def Sketch.preview : Sketch → Value
  | .slot slot => slot.preview
  | .list items => .list (previewItems items)
  | .object fields => .object (previewFields fields)

def previewFields : List (String × Sketch) → List (String × Value)
  | [] => []
  | (key, sketch) :: rest => (key, sketch.preview) :: previewFields rest

def previewItems : List Sketch → List Value
  | [] => []
  | sketch :: rest => sketch.preview :: previewItems rest

end

variable {items : List Value}

private theorem resolveItems_eq {row : Data}
    (each : ∀ item ∈ items, resolve (.object row) item = (sketch (previewSlot row) item).preview) :
    resolveItems (.object row) items = previewItems (sketchItems (previewSlot row) items) := by
  induction items with
  | nil => rfl
  | cons item rest ih =>
      rw [resolveItems, sketchItems, previewItems, each item List.mem_cons_self,
        ih (fun other member => each other (List.mem_cons_of_mem _ member))]

variable {fields : Data}

theorem resolveFields_eq {row : Data} (each : ∀ entry ∈ fields,
      resolve (.object row) entry.2 = (sketch (previewSlot row) entry.2).preview) :
    resolveFields (.object row) fields = previewFields (sketchFields (previewSlot row) fields) := by
  induction fields with
  | nil => rfl
  | cons entry rest ih =>
      obtain ⟨key, value⟩ := entry
      rw [resolveFields, sketchFields, previewFields, each _ List.mem_cons_self,
        ih (fun other member => each other (List.mem_cons_of_mem _ member))]

theorem resolve_eq (row : Data) (value : Value) :
    resolve (.object row) value = (sketch (previewSlot row) value).preview := by
  induction value using Value.induction with
  | null => rfl
  | bool value => rfl
  | number text => rfl
  | text value => rfl
  | list items ih =>
      rw [resolve, sketch, Sketch.preview, resolveItems_eq ih]
  | object fields ih =>
      rw [resolve, sketch, previewSlot]
      split
      · rfl
      · split
        · rfl
        · split
          · rfl
          · split
            · rename_i found
              rw [found]
              rfl
            · rename_i found
              rw [found, resolveFields_eq ih]
              rfl

private theorem renderPreview_eq (row mapping : Data) :
    renderPreview mapping (.object row) = (previewSketch row mapping).preview := by
  unfold renderPreview previewSketch
  rw [Sketch.preview, resolveFields_eq (fun entry _ => resolve_eq row entry.2)]

section Delivered

variable (env : RenderEnv) (ctx : Context)

def Slot.deliver : Slot → Except RenderError Value
  | .value own => .ok own
  | .python _ fields => .ok (.object fields)
  | .response step path => ctx.resolveResponsePath env step (path.getD "")

mutual

def Sketch.deliver : Sketch → Except RenderError Value
  | .slot slot => slot.deliver env ctx
  | .list items =>
      match deliverItems items with
      | .error problem => .error problem
      | .ok delivered => .ok (.list delivered)
  | .object fields =>
      match deliverFields fields with
      | .error problem => .error problem
      | .ok delivered => .ok (.object delivered)

def deliverFields : List (String × Sketch) → Except RenderError (List (String × Value))
  | [] => .ok []
  | (key, sketch) :: rest =>
      match sketch.deliver with
      | .error problem => .error problem
      | .ok first =>
          match deliverFields rest with
          | .error problem => .error problem
          | .ok later => .ok ((key, first) :: later)

def deliverItems : List Sketch → Except RenderError (List Value)
  | [] => .ok []
  | sketch :: rest =>
      match sketch.deliver with
      | .error problem => .error problem
      | .ok first =>
          match deliverItems rest with
          | .error problem => .error problem
          | .ok later => .ok (first :: later)

end

variable {env ctx}

theorem referencePath_eq (fields : Data) : referencePath fields = (declaredPath fields).getD "" := by
  unfold referencePath declaredPath
  cases fields.lookup "path" with
  | none => rfl
  | some path => cases path <;> rfl

private theorem renderItems_eq (each : ∀ item ∈ items,
      renderValue env ctx item = (sketch (renderSlot ctx.row) item).deliver env ctx) :
    renderItems env ctx items = deliverItems env ctx (sketchItems (renderSlot ctx.row) items) := by
  induction items with
  | nil => rfl
  | cons item rest ih =>
      rewrite [renderItems, sketchItems, deliverItems, each item List.mem_cons_self,
        ih (fun other member => each other (List.mem_cons_of_mem _ member))]
      rfl

theorem renderFields_eq (each : ∀ entry ∈ fields,
      renderValue env ctx entry.2 = (sketch (renderSlot ctx.row) entry.2).deliver env ctx) :
    renderFields env ctx fields = deliverFields env ctx (sketchFields (renderSlot ctx.row) fields) := by
  induction fields with
  | nil => rfl
  | cons entry rest ih =>
      obtain ⟨key, value⟩ := entry
      rewrite [renderFields, sketchFields, deliverFields, each _ List.mem_cons_self,
        ih (fun other member => each other (List.mem_cons_of_mem _ member))]
      rfl

private theorem sigil_response {step path : String} (found : sigil fields = .response step path) :
    path = (declaredPath fields).getD "" := by
  rw [← referencePath_eq]
  unfold sigil at found
  split at found
  · cases found
  · split at found
    · cases found
      rfl
    · split at found
      · cases found
      · split at found <;> cases found

private theorem renderValue_eq (value : Value) :
    renderValue env ctx value = (sketch (renderSlot ctx.row) value).deliver env ctx := by
  induction value using Value.induction with
  | null => rfl
  | bool value => rfl
  | number text => rfl
  | text value => rfl
  | list items ih =>
      rewrite [renderValue, sketch, Sketch.deliver, renderItems_eq ih]
      rfl
  | object fields ih =>
      rw [renderValue, sketch, renderSlot]
      cases found : sigil fields with
      | rowField field => rfl
      | response step path =>
          rw [sigil_response found]
          rfl
      | literal value => rfl
      | py => rfl
      | plain =>
          change _ = (Sketch.object (sketchFields (renderSlot ctx.row) fields)).deliver env ctx
          rewrite [Sketch.deliver, ← renderFields_eq ih]
          rfl

private theorem renderPayload_eq {mapping prepared : Data}
    (passed : renderPayload env ctx mapping = .ok prepared) :
    (renderSketch ctx.row mapping).deliver env ctx = .ok (.object prepared) := by
  have fields := renderPayload_fields passed
  rw [renderFields_eq (fun entry _ => renderValue_eq entry.2)] at fields
  unfold renderSketch
  rw [Sketch.deliver, fields]

end Delivered

/-! ### Places -/

def Sketch.children : Sketch → List Sketch
  | .slot _ => []
  | .list items => items
  | .object fields => fields.map Prod.snd

def Sketch.at : List Nat → Sketch → Option Slot
  | [], .slot own => some own
  | [], _ => none
  | index :: rest, sketch => (sketch.children[index]?).bind (Sketch.at rest)

def evaluatedAt : List Nat → Value → Bool
  | [], .object fields => (fields.lookup "$py").isSome
  | [], _ => false
  | index :: rest, value =>
      !(getKey value "$py").isSome && ((children value)[index]?).any (evaluatedAt rest)

/-- Both slots are values of one meaning or the same response, or neither is one. -/
structure SameSlot (preview rendered : Option Slot) : Prop where
  value : ∀ means, (∃ value, preview = some (.value value) ∧ meaning value = means) ↔
    ∃ value, rendered = some (.value value) ∧ meaning value = means
  response : ∀ step path, preview = some (.response step path) ↔ rendered = some (.response step path)

/-- The sketches are those of the two programs, and at every place the preview has
what the renderer puts there. -/
structure ClassifiedAlike (env : RenderEnv) (ctx : Context) (preview mapping : Data) : Prop where
  shown : renderPreview preview (.object ctx.row) = (previewSketch ctx.row preview).preview
  delivered : ∀ prepared, renderPayload env ctx mapping = .ok prepared →
    (renderSketch ctx.row mapping).deliver env ctx = .ok (.object prepared)
  slots : ∀ place, SameSlot ((previewSketch ctx.row preview).at place)
    ((renderSketch ctx.row mapping).at place)
  python : ∀ prepared, renderPayload env ctx mapping = .ok prepared → ∀ place,
    (∃ expr fields, (previewSketch ctx.row preview).at place = some (.python expr fields)) ↔
      evaluatedAt place (.object prepared) = true

def hasText (key : String) (fields : Data) : Bool := ((fields.lookup key).bind asStr).isSome

mutual

def unmixed : Value → Bool
  | .object fields =>
      match sigil fields with
      | .rowField _ => true
      | .response _ _ => !hasText "$py" fields
      | .literal _ => !hasText "$py" fields
      | .py => true
      | .plain => unmixedFields fields
  | .list items => unmixedItems items
  | .null => true
  | .bool _ => true
  | .number _ => true
  | .text _ => true

def unmixedFields : List (String × Value) → Bool
  | [] => true
  | (_, value) :: rest => unmixed value && unmixedFields rest

def unmixedItems : List Value → Bool
  | [] => true
  | value :: rest => unmixed value && unmixedItems rest

end

section Kept

variable (convert : String → Option String)

mutual

/-- The numbers that the template itself puts into the payload survive. -/
def Kept : Value → Prop
  | .object fields =>
      match sigil fields with
      | .rowField _ => True
      | .response _ _ => True
      | .literal value => Survives convert value
      | .py => True
      | .plain => KeptFields fields
  | .list items => KeptItems items
  | .number literal => NumberSurvives convert literal
  | .null => True
  | .bool _ => True
  | .text _ => True

def KeptFields : List (String × Value) → Prop
  | [] => True
  | (_, value) :: rest => Kept value ∧ KeptFields rest

def KeptItems : List Value → Prop
  | [] => True
  | value :: rest => Kept value ∧ KeptItems rest

end

variable {convert}

private theorem keptItems_iff :
    KeptItems convert items ↔ ∀ item ∈ items, Kept convert item := by
  induction items with
  | nil => simp [KeptItems]
  | cons item rest ih => simp [KeptItems, ih]

theorem keptFields_iff :
    KeptFields convert fields ↔ ∀ item ∈ fields.map Prod.snd, Kept convert item := by
  induction fields with
  | nil => simp [KeptFields]
  | cons entry rest ih => simp [KeptFields, ih]

end Kept

section Settled

variable (env : RenderEnv) (ctx : Context)

mutual

/-- A `$py` that is no sigil of the mapping reaches the payload nowhere. -/
def settled : Value → Bool
  | .object fields =>
      match sigil fields with
      | .rowField field => !containsPy ((ctx.row.lookup field).getD .null)
      | .response step path =>
          match ctx.resolveResponsePath env step path with
          | .error _ => true
          | .ok value => !containsPy value
      | .literal value => !containsPy value
      | .py => true
      | .plain => !(fields.lookup "$py").isSome && settledFields fields
  | .list items => settledItems items
  | .null => true
  | .bool _ => true
  | .number _ => true
  | .text _ => true

def settledFields : List (String × Value) → Bool
  | [] => true
  | (_, value) :: rest => settled value && settledFields rest

def settledItems : List Value → Bool
  | [] => true
  | value :: rest => settled value && settledItems rest

end

/-- The mapping is unmixed and keeps its numbers, and as it is loaded it is settled
where it is rendered. -/
structure Previewed (mapping loaded : Data) : Prop where
  unmixed : unmixedFields mapping = true
  numbers : KeptFields (convertNumber env.fraction) mapping
  settled : ∀ prepared, renderPayload env ctx loaded = .ok prepared →
    loaded.lookup "$py" = none ∧ settledFields env ctx loaded = true

end Settled

theorem sketchItems_map (classify : Data → Option Slot) (items : List Value) :
    sketchItems classify items = items.map (sketch classify) := by
  induction items with
  | nil => rfl
  | cons item rest ih => rw [sketchItems, ih, List.map_cons]

theorem sketchFields_map (classify : Data → Option Slot) (fields : Data) :
    (sketchFields classify fields).map Prod.snd = (fields.map Prod.snd).map (sketch classify) := by
  induction fields with
  | nil => rfl
  | cons entry rest ih =>
      obtain ⟨key, value⟩ := entry
      rw [sketchFields, List.map_cons, ih]
      rfl

theorem unmixedItems_iff :
    unmixedItems items = true ↔ ∀ item ∈ items, unmixed item = true := by
  induction items with
  | nil => simp [unmixedItems]
  | cons item rest ih => simp [unmixedItems, ih]

theorem unmixedFields_iff :
    unmixedFields fields = true ↔ ∀ item ∈ fields.map Prod.snd, unmixed item = true := by
  induction fields with
  | nil => simp [unmixedFields]
  | cons entry rest ih => simp [unmixedFields, ih]

private theorem settledItems_iff {env : RenderEnv} {ctx : Context} :
    settledItems env ctx items = true ↔ ∀ item ∈ items, settled env ctx item = true := by
  induction items with
  | nil => simp [settledItems]
  | cons item rest ih => simp [settledItems, ih]

private theorem settledFields_iff {env : RenderEnv} {ctx : Context} :
    settledFields env ctx fields = true ↔ ∀ item ∈ fields.map Prod.snd, settled env ctx item = true := by
  induction fields with
  | nil => simp [settledFields]
  | cons entry rest ih => simp [settledFields, ih]

theorem bind_asText_eq_none {found : Option Value} (other : ∀ text, found = some (.text text) → False) :
    found.bind asStr = none := by
  cases found with
  | none => rfl
  | some value =>
      cases value with
      | text own => exact absurd rfl (other own)
      | _ => rfl

theorem sigil_eq (fields : Data) :
    sigil fields =
      match (fields.lookup "$from").bind asStr with
      | some field => .rowField field
      | none =>
          match (fields.lookup "$fromResponse").bind asStr with
          | some step => .response step (referencePath fields)
          | none =>
              match fields.lookup "$literal" with
              | some value => .literal value
              | none =>
                  match (fields.lookup "$py").bind asStr with
                  | some _ => .py
                  | none => .plain := by
  unfold sigil
  split
  · rename_i found
    simp only [found, Option.bind_some, asStr]
  · rename_i noField
    simp only [bind_asText_eq_none noField]
    split
    · rename_i found
      simp only [found, Option.bind_some, asStr]
    · rename_i noStep
      simp only [bind_asText_eq_none noStep]
      cases fields.lookup "$literal" with
      | some value => rfl
      | none =>
          simp only
          split
          · rename_i found
            simp only [found, Option.bind_some, asStr]
          · rename_i noExpr
            simp only [bind_asText_eq_none noExpr]

theorem previewSlot_eq (row fields : Data) :
    previewSlot row fields =
      match sigil fields with
      | .rowField _ => renderSlot row fields
      | .response _ _ | .literal _ =>
          match (fields.lookup "$py").bind asStr with
          | some expr => some (.python expr fields)
          | none => renderSlot row fields
      | .py | .plain => renderSlot row fields := by
  unfold previewSlot renderSlot
  rw [sigil_eq]
  cases (fields.lookup "$from").bind asStr with
  | some field => rfl
  | none =>
      cases (fields.lookup "$py").bind asStr with
      | some expr =>
          cases (fields.lookup "$fromResponse").bind asStr with
          | some step => rfl
          | none => cases fields.lookup "$literal" <;> rfl
      | none =>
          cases (fields.lookup "$fromResponse").bind asStr with
          | some step => rfl
          | none => cases fields.lookup "$literal" <;> rfl

theorem sketch_object (classify : Data → Option Slot) (plain : classify fields = none) :
    sketch classify (.object fields) = .object (sketchFields classify fields) := by
  rw [sketch, plain]

theorem sketch_slot (classify : Data → Option Slot) {slot : Slot}
    (found : classify fields = some slot) : sketch classify (.object fields) = .slot slot := by
  rw [sketch, found]

def SlotsAlike (preview rendered : Sketch) : Prop :=
  ∀ place, SameSlot (preview.at place) (rendered.at place)

theorem SameSlot.refl (slot : Option Slot) : SameSlot slot slot := ⟨fun _ => Iff.rfl, fun _ _ => Iff.rfl⟩

private theorem sameSlot_values (preview rendered : Value) :
    SameSlot (some (.value preview)) (some (.value rendered)) ↔ meaning rendered = meaning preview := by
  constructor
  · intro alike
    obtain ⟨value, same, means⟩ := (alike.value (meaning preview)).mp ⟨preview, rfl, rfl⟩
    cases same
    exact means
  · intro same
    refine ⟨?_, fun _ _ => iff_of_false nofun nofun⟩
    intro means
    constructor
    · rintro ⟨value, found, rfl⟩
      cases found
      exact ⟨rendered, rfl, same⟩
    · rintro ⟨value, found, rfl⟩
      cases found
      exact ⟨preview, rfl, same.symm⟩

theorem sameSlot_leaf {preview rendered : Value} :
    SlotsAlike (.slot (.value preview)) (.slot (.value rendered)) ↔
      meaning rendered = meaning preview := by
  rw [← sameSlot_values]
  constructor
  · exact fun each => each []
  · intro here place
    cases place with
    | nil => exact here
    | cons index rest => exact SameSlot.refl none

section Decoded

variable {convert : String → Option String}

theorem sameSlot_container {preview rendered : Sketch} {items decoded : List Value}
    {first second : Value → Sketch} (noneFirst : preview.at [] = none) (noneSecond : rendered.at [] = none)
    (arrived : decodeItems convert items = some decoded)
    (previews : preview.children = items.map first) (renders : rendered.children = decoded.map second) :
    SlotsAlike preview rendered ↔
      ∀ item ∈ items, ∀ after, decodeValue convert item = some after →
        SlotsAlike (first item) (second after) := by
  constructor
  · intro alike item member after itemArrived place
    obtain ⟨index, stands⟩ := List.mem_iff_getElem?.mp member
    obtain ⟨own, ownArrived, afterStands⟩ := decodeItems_get arrived stands
    rw [itemArrived] at ownArrived
    cases ownArrived
    have here := alike (index :: place)
    rw [Sketch.at, Sketch.at, previews, renders, List.getElem?_map, List.getElem?_map, stands,
      afterStands] at here
    exact here
  · intro each place
    cases place with
    | nil =>
        rw [noneFirst, noneSecond]
        exact SameSlot.refl none
    | cons index rest =>
        rw [Sketch.at, Sketch.at, previews, renders, List.getElem?_map, List.getElem?_map]
        cases stands : items[index]? with
        | none =>
            have beyond : decoded[index]? = none := by
              rw [List.getElem?_eq_none_iff, decodeItems_length arrived]
              exact List.getElem?_eq_none_iff.mp stands
            rw [beyond]
            exact SameSlot.refl none
        | some item =>
            obtain ⟨after, itemArrived, afterStands⟩ := decodeItems_get arrived stands
            rw [afterStands]
            exact each item (List.mem_of_getElem? stands) after itemArrived rest

private theorem sameSlot_items {first second : Data → Option Slot} {items decoded : List Value}
    (arrived : decodeItems convert items = some decoded) :
    SlotsAlike (.list (sketchItems first items)) (.list (sketchItems second decoded)) ↔
      ∀ item ∈ items, ∀ after, decodeValue convert item = some after →
        SlotsAlike (sketch first item) (sketch second after) := by
  refine sameSlot_container rfl rfl arrived ?_ ?_
  · exact sketchItems_map first items
  · exact sketchItems_map second decoded

theorem decodeFields_values {fields decoded : Data}
    (arrived : decodeFields convert fields = some decoded) :
    decodeItems convert (fields.map Prod.snd) = some (decoded.map Prod.snd) := by
  rw [← decodeFields_items, arrived, Option.map_some]

theorem sameSlot_fields {first second : Data → Option Slot} {fields decoded : Data}
    (arrived : decodeFields convert fields = some decoded) :
    SlotsAlike (.object (sketchFields first fields)) (.object (sketchFields second decoded)) ↔
      ∀ item ∈ fields.map Prod.snd, ∀ after, decodeValue convert item = some after →
        SlotsAlike (sketch first item) (sketch second after) := by
  refine sameSlot_container rfl rfl (decodeFields_values arrived) ?_ ?_
  · exact sketchFields_map first fields
  · exact sketchFields_map second decoded

theorem decoded_lookup {fields decoded : Data} (arrived : decodeFields convert fields = some decoded)
    (key : String) :
    (fields.lookup key = none ∧ decoded.lookup key = none) ∨
      ∃ value after, fields.lookup key = some value ∧ decoded.lookup key = some after ∧
        decodeValue convert value = some after := by
  cases held : fields.lookup key with
  | none =>
      left
      refine ⟨rfl, ?_⟩
      rw [Data.lookup_none_iff, decodeFields_keys arrived, ← Data.lookup_none_iff]
      exact held
  | some value =>
      right
      obtain ⟨after, valueArrived, found⟩ := decodeFields_lookup arrived held
      exact ⟨value, after, rfl, found, valueArrived⟩

private theorem asText_decoded {value after : Value}
    (arrived : decodeValue convert value = some after) :
    asStr after = asStr value := by
  cases value with
  | null =>
      cases arrived
      rfl
  | bool own =>
      cases arrived
      rfl
  | text own =>
      cases arrived
      rfl
  | number literal =>
      obtain ⟨later, _, rfl⟩ := Option.map_eq_some_iff.mp arrived
      rfl
  | list items =>
      obtain ⟨later, _, rfl⟩ := Option.map_eq_some_iff.mp arrived
      rfl
  | object fields =>
      obtain ⟨later, _, rfl⟩ := Option.map_eq_some_iff.mp arrived
      rfl

theorem text_decoded {fields decoded : Data} (arrived : decodeFields convert fields = some decoded)
    (key : String) : (decoded.lookup key).bind asStr = (fields.lookup key).bind asStr := by
  rcases decoded_lookup arrived key with ⟨none, gone⟩ | ⟨value, after, held, found, valueArrived⟩
  · rw [none, gone]
  · rw [held, found, Option.bind_some, Option.bind_some, asText_decoded valueArrived]

theorem sigil_decoded {fields decoded : Data} (arrived : decodeFields convert fields = some decoded) :
    sigil decoded = sigil fields ∧ (∀ value, sigil fields ≠ .literal value) ∨
      ∃ value after, sigil fields = .literal value ∧ sigil decoded = .literal after ∧
        decodeValue convert value = some after := by
  have path : referencePath decoded = referencePath fields := by
    rw [referencePath_eq, referencePath_eq, declaredPath, declaredPath, text_decoded arrived]
  rw [sigil_eq, sigil_eq, text_decoded arrived, text_decoded arrived, text_decoded arrived, path]
  cases (fields.lookup "$from").bind asStr with
  | some field => exact .inl ⟨rfl, fun _ => nofun⟩
  | none =>
      cases (fields.lookup "$fromResponse").bind asStr with
      | some step => exact .inl ⟨rfl, fun _ => nofun⟩
      | none =>
          rcases decoded_lookup arrived "$literal" with
            ⟨none, gone⟩ | ⟨value, after, held, found, valueArrived⟩
          · rw [none, gone]
            cases (fields.lookup "$py").bind asStr with
            | some expr => exact .inl ⟨rfl, fun _ => nofun⟩
            | none => exact .inl ⟨rfl, fun _ => nofun⟩
          · rw [held, found]
            exact .inr ⟨value, after, rfl, rfl, valueArrived⟩

theorem unmixedFields_decoded {fields decoded : Data}
    (arrived : decodeFields convert fields = some decoded)
    (inner : ∀ item ∈ fields.map Prod.snd, ∀ after, decodeValue convert item = some after →
      unmixed after = unmixed item) : unmixedFields decoded = unmixedFields fields := by
  induction fields generalizing decoded with
  | nil =>
      cases arrived
      rfl
  | cons entry rest ih =>
      obtain ⟨key, value⟩ := entry
      unfold decodeFields at arrived
      split at arrived
      · rename_i first later firstArrived laterArrived
        cases arrived
        rw [unmixedFields, unmixedFields, inner value List.mem_cons_self first firstArrived,
          ih laterArrived (fun item member => inner item (List.mem_cons_of_mem _ member))]
      · cases arrived

private theorem unmixedItems_decoded {items decoded : List Value}
    (arrived : decodeItems convert items = some decoded)
    (inner : ∀ item ∈ items, ∀ after, decodeValue convert item = some after →
      unmixed after = unmixed item) : unmixedItems decoded = unmixedItems items := by
  induction items generalizing decoded with
  | nil =>
      cases arrived
      rfl
  | cons value rest ih =>
      unfold decodeItems at arrived
      split at arrived
      · rename_i first later firstArrived laterArrived
        cases arrived
        rw [unmixedItems, unmixedItems, inner value List.mem_cons_self first firstArrived,
          ih laterArrived (fun item member => inner item (List.mem_cons_of_mem _ member))]
      · cases arrived

theorem unmixed_decoded (value : Value) : ∀ after, decodeValue convert value = some after →
    unmixed after = unmixed value := by
  induction value using Value.induction with
  | null =>
      intro after arrived
      cases arrived
      rfl
  | bool value =>
      intro after arrived
      cases arrived
      rfl
  | text value =>
      intro after arrived
      cases arrived
      rfl
  | number text =>
      intro after arrived
      obtain ⟨later, _, rfl⟩ := Option.map_eq_some_iff.mp arrived
      rfl
  | list items ih =>
      intro after arrived
      obtain ⟨later, itemsArrived, rfl⟩ := Option.map_eq_some_iff.mp arrived
      exact unmixedItems_decoded itemsArrived ih
  | object fields ih =>
      intro after arrived
      obtain ⟨decoded, fieldsArrived, rfl⟩ := Option.map_eq_some_iff.mp arrived
      have expr : hasText "$py" decoded = hasText "$py" fields := by
        unfold hasText
        rw [text_decoded fieldsArrived]
      have inside : unmixedFields decoded = unmixedFields fields := by
        apply unmixedFields_decoded fieldsArrived
        intro item member
        obtain ⟨entry, among, rfl⟩ := List.mem_map.mp member
        exact ih entry among
      unfold unmixed
      rcases sigil_decoded fieldsArrived with ⟨same, _⟩ | ⟨value, after, found, other, _⟩
      · rw [same, expr, inside]
      · rw [found, other, expr]

theorem sameSlot_each {row : Data} {items decoded : List Value}
    (arrived : decodeItems convert items = some decoded)
    (inner : ∀ item ∈ items, ∀ after, decodeValue convert item = some after →
      (SlotsAlike (sketch (previewSlot row) item) (sketch (renderSlot row) after) ↔
        unmixed item = true ∧ Kept convert item)) :
    (∀ item ∈ items, ∀ after, decodeValue convert item = some after →
      SlotsAlike (sketch (previewSlot row) item) (sketch (renderSlot row) after)) ↔
      (∀ item ∈ items, unmixed item = true) ∧ ∀ item ∈ items, Kept convert item := by
  rw [← forall₂_and]
  refine forall₂_congr ?_
  intro item member
  obtain ⟨index, stands⟩ := List.mem_iff_getElem?.mp member
  obtain ⟨after, own, _⟩ := decodeItems_get arrived stands
  constructor
  · intro each
    exact (inner item member after own).mp (each after own)
  · intro kept other ownOther
    exact (inner item member other ownOther).mpr kept

/-- Of a template and its decoded form, what the preview has of the one is what the
renderer puts in place of the other exactly when no object is mixed and the numbers
survive. -/
theorem sameSlot_iff (row : Data) (value : Value) : ∀ after, decodeValue convert value = some after →
    (SlotsAlike (sketch (previewSlot row) value) (sketch (renderSlot row) after) ↔
      unmixed value = true ∧ Kept convert value) := by
  induction value using Value.induction with
  | null =>
      intro after arrived
      cases arrived
      exact iff_of_true (fun place => SameSlot.refl _) ⟨rfl, trivial⟩
  | bool value =>
      intro after arrived
      cases arrived
      exact iff_of_true (fun place => SameSlot.refl _) ⟨rfl, trivial⟩
  | text value =>
      intro after arrived
      cases arrived
      exact iff_of_true (fun place => SameSlot.refl _) ⟨rfl, trivial⟩
  | number text =>
      intro after arrived
      have survives := meaning_decoded arrived
      obtain ⟨later, _, rfl⟩ := Option.map_eq_some_iff.mp arrived
      exact (sameSlot_leaf.trans survives).trans (and_iff_right rfl).symm
  | list items ih =>
      intro after arrived
      obtain ⟨later, itemsArrived, rfl⟩ := Option.map_eq_some_iff.mp arrived
      rw [unmixed, unmixedItems_iff, Kept, keptItems_iff, sketch, sketch,
        sameSlot_items itemsArrived]
      exact sameSlot_each itemsArrived ih
  | object fields ih =>
      intro after arrived
      obtain ⟨decoded, fieldsArrived, rfl⟩ := Option.map_eq_some_iff.mp arrived
      have own := previewSlot_eq row fields
      have paths : declaredPath decoded = declaredPath fields := text_decoded fieldsArrived "path"
      have expression := text_decoded fieldsArrived "$py"
      rw [unmixed, Kept]
      rcases sigil_decoded fieldsArrived with
        ⟨same, noLiteral⟩ | ⟨literalValue, literalAfter, found, other, literalArrived⟩
      · cases found : sigil fields with
        | rowField field =>
            have previewed : renderSlot row fields = some (.value ((row.lookup field).getD .null)) := by
              rw [renderSlot, found]
            have rendered : renderSlot row decoded = some (.value ((row.lookup field).getD .null)) := by
              rw [renderSlot, same, found]
            rw [found] at own
            rw [sketch_slot _ (own.trans previewed), sketch_slot _ rendered]
            exact iff_of_true (fun place => SameSlot.refl _) ⟨rfl, trivial⟩
        | py =>
            have previewed : renderSlot row fields =
                some (.python (((fields.lookup "$py").bind asStr).getD "") fields) := by
              rw [renderSlot, found]
            have rendered : renderSlot row decoded =
                some (.python (((fields.lookup "$py").bind asStr).getD "") decoded) := by
              rw [renderSlot, same, found, expression]
            rw [found] at own
            rw [sketch_slot _ (own.trans previewed), sketch_slot _ rendered]
            refine iff_of_true ?_ ⟨rfl, trivial⟩
            intro place
            cases place with
            | nil => exact ⟨fun _ => iff_of_false nofun nofun, fun _ _ => iff_of_false nofun nofun⟩
            | cons index rest => exact SameSlot.refl none
        | plain =>
            rw [found] at own
            have previewed : renderSlot row fields = none := by
              rw [renderSlot, found]
            have rendered : renderSlot row decoded = none := by
              rw [renderSlot, same, found]
            rw [sketch_object _ (own.trans previewed), sketch_object _ rendered,
              sameSlot_fields fieldsArrived]
            change _ ↔ unmixedFields fields = true ∧ KeptFields convert fields
            rw [unmixedFields_iff, keptFields_iff]
            refine sameSlot_each (decodeFields_values fieldsArrived) ?_
            intro item member
            obtain ⟨entry, inside, rfl⟩ := List.mem_map.mp member
            exact ih entry inside
        | response step path =>
            have previewed : renderSlot row fields = some (.response step (declaredPath fields)) := by
              rw [renderSlot, found]
            have rendered : renderSlot row decoded = some (.response step (declaredPath fields)) := by
              rw [renderSlot, same, found, paths]
            rw [found] at own
            rw [sketch_slot _ rendered]
            cases expr : (fields.lookup "$py").bind asStr with
            | none =>
                rw [expr] at own
                rw [sketch_slot _ (own.trans previewed)]
                exact iff_of_true (fun place => SameSlot.refl _) ⟨by simp [hasText, expr], trivial⟩
            | some text =>
                rw [expr] at own
                rw [sketch_slot _ own]
                refine iff_of_false ?_ (by simp [hasText, expr])
                intro alike
                have wrong := ((alike []).response step (declaredPath fields)).mpr rfl
                cases wrong
        | literal value => exact absurd found (noLiteral value)
      · have previewed : renderSlot row fields = some (.value literalValue) := by
          rw [renderSlot, found]
        have rendered : renderSlot row decoded = some (.value literalAfter) := by
          rw [renderSlot, other]
        rw [found] at own
        rw [sketch_slot _ rendered, found]
        cases expr : (fields.lookup "$py").bind asStr with
        | none =>
            rw [expr] at own
            rw [sketch_slot _ (own.trans previewed), sameSlot_leaf, meaning_decoded literalArrived]
            exact (and_iff_right (by simp [hasText, expr])).symm
        | some text =>
            rw [expr] at own
            rw [sketch_slot _ own]
            refine iff_of_false ?_ (by simp [hasText, expr])
            intro alike
            obtain ⟨value, wrong, _⟩ :=
              ((alike []).value (meaning literalAfter)).mpr ⟨literalAfter, rfl, rfl⟩
            cases wrong

end Decoded

private theorem containsPy_object :
    containsPy (.object fields) = ((fields.lookup "$py").isSome || (fields.map Prod.snd).any containsPy) := by
  have inside : ∀ fields : Data, fieldsContainPy fields = (fields.map Prod.snd).any containsPy := by
    intro fields
    induction fields with
    | nil => rfl
    | cons entry rest ih => rw [fieldsContainPy, ih, List.map_cons, List.any_cons]
  rw [containsPy, inside]

private theorem containsPy_list : containsPy (.list items) = items.any containsPy := by
  rw [containsPy]
  induction items with
  | nil => rfl
  | cons item rest ih => rw [itemsContainPy, ih, List.any_cons]

theorem evaluatedAt_none_iff (value : Value) :
    (∀ place, evaluatedAt place value = false) ↔ containsPy value = false := by
  induction value using Value.induction with
  | null => exact iff_of_true (fun place => by cases place <;> rfl) rfl
  | bool value => exact iff_of_true (fun place => by cases place <;> rfl) rfl
  | number text => exact iff_of_true (fun place => by cases place <;> rfl) rfl
  | text value => exact iff_of_true (fun place => by cases place <;> rfl) rfl
  | list items ih =>
      rw [containsPy_list, List.any_eq_false]
      constructor
      · intro none item member
        obtain ⟨index, stands⟩ := List.mem_iff_getElem?.mp member
        rw [Bool.not_eq_true, ← ih item member]
        intro place
        have here := none (index :: place)
        change ((items[index]?).any (evaluatedAt place)) = false at here
        rw [stands] at here
        exact here
      · intro each place
        cases place with
        | nil => rfl
        | cons index rest =>
            change ((items[index]?).any (evaluatedAt rest)) = false
            cases stands : items[index]? with
            | none => rfl
            | some item =>
                have member := List.mem_of_getElem? stands
                exact (ih item member).mpr (Bool.not_eq_true _ ▸ each item member) rest
  | object fields ih =>
      rw [containsPy_object, Bool.or_eq_false_iff, List.any_eq_false]
      constructor
      · intro none
        have keyless : (fields.lookup "$py").isSome = false := none []
        refine ⟨keyless, ?_⟩
        intro item member
        obtain ⟨entry, inside, rfl⟩ := List.mem_map.mp member
        obtain ⟨index, stands⟩ := List.mem_iff_getElem?.mp member
        rw [Bool.not_eq_true, ← ih entry inside]
        intro place
        have here := none (index :: place)
        change (!(fields.lookup "$py").isSome &&
          ((fields.map Prod.snd)[index]?).any (evaluatedAt place)) = false at here
        rw [keyless, stands] at here
        exact here
      · rintro ⟨keyless, each⟩ place
        cases place with
        | nil => exact keyless
        | cons index rest =>
            change (!(fields.lookup "$py").isSome &&
              ((fields.map Prod.snd)[index]?).any (evaluatedAt rest)) = false
            cases stands : (fields.map Prod.snd)[index]? with
            | none => exact Bool.and_false _
            | some item =>
                have member := List.mem_of_getElem? stands
                obtain ⟨entry, inside, rfl⟩ := List.mem_map.mp member
                rw [Option.any_some, (ih entry inside).mpr (Bool.not_eq_true _ ▸ each _ member) rest,
                  Bool.and_false]

def IsPython (slot : Option Slot) : Prop := ∃ expr fields, slot = some (.python expr fields)

def PythonAlike (preview : Sketch) (out : Value) : Prop :=
  ∀ place, IsPython (preview.at place) ↔ evaluatedAt place out = true

theorem not_isPython_none : ¬IsPython none := by
  rintro ⟨_, _, impossible⟩
  cases impossible

theorem python_container {env : RenderEnv} {ctx : Context} {preview : Sketch} {out : Value}
    {classified : Value → Sketch} (bare : preview.at [] = none)
    (previews : preview.children = items.map classified) (keyless : getKey out "$py" = none)
    (untouched : evaluatedAt [] out = false)
    (rendered : renderItems env ctx items = .ok (children out)) :
    PythonAlike preview out ↔
      ∀ item ∈ items, ∀ after, renderValue env ctx item = .ok after →
        PythonAlike (classified item) after := by
  have pairs := renderItems_forall rendered
  have below (index : Nat) (rest : List Nat) :
      evaluatedAt (index :: rest) out = ((children out)[index]?).any (evaluatedAt rest) := by
    rw [evaluatedAt, keyless]
    rfl
  constructor
  · intro alike item member after passed place
    obtain ⟨index, stands⟩ := List.mem_iff_getElem?.mp member
    obtain ⟨other, afterStands, passedOther⟩ := exists_of_forall₂ pairs stands
    rw [passed] at passedOther
    cases passedOther
    have here := alike (index :: place)
    rw [below, afterStands, Sketch.at, previews, List.getElem?_map, stands] at here
    exact here
  · intro each place
    cases place with
    | nil =>
        rw [bare, untouched]
        exact iff_of_false not_isPython_none Bool.false_ne_true
    | cons index rest =>
        rw [below, Sketch.at, previews, List.getElem?_map]
        cases stands : items[index]? with
        | none =>
            have short : (children out)[index]? = none := by
              rw [List.getElem?_eq_none_iff, ← pairs.length_eq]
              exact List.getElem?_eq_none_iff.mp stands
            rw [short]
            exact iff_of_false not_isPython_none Bool.false_ne_true
        | some item =>
            obtain ⟨after, afterStands, passed⟩ := exists_of_forall₂ pairs stands
            rw [afterStands]
            exact each item (List.mem_of_getElem? stands) after passed rest

theorem python_leaf {value : Value} (free : containsPy value = false) (slot : Value) :
    PythonAlike (.slot (.value slot)) value := by
  intro place
  refine iff_of_false ?_ ?_
  · rintro ⟨expr, fields, found⟩
    cases place <;> cases found
  · rw [(evaluatedAt_none_iff value).mpr free place]
    exact Bool.false_ne_true

theorem python_inserted {value : Value} {slot : Slot} (other : ∀ expr fields, slot ≠ .python expr fields) :
    PythonAlike (.slot slot) value ↔ (!containsPy value) = true := by
  have no (place : List Nat) : ¬IsPython ((Sketch.slot slot).at place) := by
    rintro ⟨expr, fields, found⟩
    cases place with
    | nil =>
        have same : slot = .python expr fields := Option.some.inj found
        exact other expr fields same
    | cons index rest => cases found
  rw [Bool.not_eq_true', ← evaluatedAt_none_iff value]
  refine forall_congr' ?_
  intro place
  rw [← Bool.not_eq_true]
  exact ⟨fun own found => no place (own.mpr found), fun free => iff_of_false (no place) free⟩

private theorem python_sigil {expr : String}
    (found : (fields.lookup "$py").bind asStr = some expr) :
    PythonAlike (.slot (.python expr fields)) (.object fields) := by
  intro place
  obtain ⟨value, stands, _⟩ := Option.bind_eq_some_iff.mp found
  have present : (fields.lookup "$py").isSome = true := Option.isSome_of_eq_some stands
  cases place with
  | nil => exact iff_of_true ⟨expr, fields, rfl⟩ present
  | cons index rest =>
      refine iff_of_false ?_ ?_
      · rintro ⟨_, _, impossible⟩
        cases impossible
      · change ¬(!(fields.lookup "$py").isSome && _) = true
        rw [present]
        exact Bool.false_ne_true

theorem python_each {env : RenderEnv} {ctx : Context} {items rendered : List Value}
    (passed : renderItems env ctx items = .ok rendered)
    (inner : ∀ item ∈ items, ∀ after, renderValue env ctx item = .ok after →
      (PythonAlike (sketch (previewSlot ctx.row) item) after ↔ settled env ctx item = true)) :
    (∀ item ∈ items, ∀ after, renderValue env ctx item = .ok after →
      PythonAlike (sketch (previewSlot ctx.row) item) after) ↔
      ∀ item ∈ items, settled env ctx item = true := by
  refine forall₂_congr ?_
  intro item member
  obtain ⟨index, stands⟩ := List.mem_iff_getElem?.mp member
  obtain ⟨after, _, own⟩ := exists_of_forall₂ (renderItems_forall passed) stands
  constructor
  · intro each
    exact (inner item member after own).mp (each after own)
  · intro clean other passedOther
    exact (inner item member other passedOther).mpr clean

theorem python_fields {env : RenderEnv} {ctx : Context} {fields rendered : Data}
    (passed : renderFields env ctx fields = .ok rendered)
    (inner : ∀ item ∈ fields.map Prod.snd, ∀ after, renderValue env ctx item = .ok after →
      (PythonAlike (sketch (previewSlot ctx.row) item) after ↔ settled env ctx item = true)) :
    PythonAlike (.object (sketchFields (previewSlot ctx.row) fields)) (.object rendered) ↔
      fields.lookup "$py" = none ∧ settledFields env ctx fields = true := by
  obtain ⟨keys, items⟩ := renderFields_items passed
  have same : rendered.lookup "$py" = none ↔ fields.lookup "$py" = none := lookup_eq_none_of_keys keys
  by_cases keyless : fields.lookup "$py" = none
  · have out := same.mpr keyless
    have untouched : evaluatedAt [] (.object rendered) = false := by
      rw [evaluatedAt, out]
      rfl
    have whole : PythonAlike (.object (sketchFields (previewSlot ctx.row) fields)) (.object rendered) ↔
        ∀ item ∈ fields.map Prod.snd, ∀ after, renderValue env ctx item = .ok after →
          PythonAlike (sketch (previewSlot ctx.row) item) after :=
      python_container rfl (sketchFields_map _ fields) out untouched items
    rw [whole, python_each items inner, settledFields_iff]
    exact (and_iff_right keyless).symm
  · refine iff_of_false ?_ (fun own => keyless own.1)
    intro alike
    have present : evaluatedAt [] (.object rendered) = true := by
      rw [evaluatedAt, Option.isSome_iff_ne_none]
      exact fun out => keyless (same.mp out)
    obtain ⟨_, _, impossible⟩ := (alike []).mpr present
    cases impossible

private theorem previewSlot_of_unmixed {row fields : Data} {slot : Slot}
    (clear : unmixed (.object fields) = true) (rendered : renderSlot row fields = some slot) :
    previewSlot row fields = some slot := by
  rw [unmixed] at clear
  rw [previewSlot_eq]
  cases found : sigil fields with
  | rowField field => exact rendered
  | py => exact rendered
  | plain => exact rendered
  | response step path =>
      rw [found] at clear
      have none : (fields.lookup "$py").bind asStr = none := by
        simpa [hasText] using clear
      rw [none]
      exact rendered
  | literal value =>
      rw [found] at clear
      have none : (fields.lookup "$py").bind asStr = none := by
        simpa [hasText] using clear
      rw [none]
      exact rendered

private theorem sigil_py (found : sigil fields = .py) :
    ∃ expr, (fields.lookup "$py").bind asStr = some expr := by
  rw [sigil_eq] at found
  split at found
  · cases found
  · split at found
    · cases found
    · split at found
      · cases found
      · split at found
        · rename_i expr own
          exact ⟨expr, own⟩
        · cases found

theorem python_iff {env : RenderEnv} {ctx : Context} (value : Value) (clear : unmixed value = true) :
    ∀ after, renderValue env ctx value = .ok after →
      (PythonAlike (sketch (previewSlot ctx.row) value) after ↔ settled env ctx value = true) := by
  induction value using Value.induction with
  | null =>
      intro after passed
      cases passed
      exact iff_of_true (python_leaf rfl _) rfl
  | bool value =>
      intro after passed
      cases passed
      exact iff_of_true (python_leaf rfl _) rfl
  | number text =>
      intro after passed
      cases passed
      exact iff_of_true (python_leaf rfl _) rfl
  | text value =>
      intro after passed
      cases passed
      exact iff_of_true (python_leaf rfl _) rfl
  | list items ih =>
      intro after passed
      rw [renderValue] at passed
      rw [unmixed, unmixedItems_iff] at clear
      cases each : renderItems env ctx items with
      | error problem =>
          rw [each] at passed
          cases passed
      | ok rendered =>
          rw [each] at passed
          cases passed
          have whole : PythonAlike (.list (sketchItems (previewSlot ctx.row) items)) (.list rendered) ↔
              ∀ item ∈ items, ∀ after, renderValue env ctx item = .ok after →
                PythonAlike (sketch (previewSlot ctx.row) item) after :=
            python_container rfl (sketchItems_map _ items) rfl rfl each
          rw [sketch, whole, settled, settledItems_iff]
          exact python_each each (fun item member => ih item member (clear item member))
  | object fields ih =>
      intro after passed
      rw [renderValue] at passed
      have own (slot : Slot) (rendered : renderSlot ctx.row fields = some slot) :
          sketch (previewSlot ctx.row) (.object fields) = .slot slot :=
        sketch_slot _ (previewSlot_of_unmixed clear rendered)
      rw [settled]
      cases found : sigil fields with
      | rowField field =>
          rw [found] at passed
          cases passed
          rw [own (.value ((ctx.row.lookup field).getD .null)) (by rw [renderSlot, found])]
          exact python_inserted (fun _ _ => Slot.noConfusion)
      | response step path =>
          rw [found] at passed
          change ctx.resolveResponsePath env step path = .ok after at passed
          rw [own (.response step (declaredPath fields)) (by rw [renderSlot, found])]
          simp only [passed]
          exact python_inserted (fun _ _ => Slot.noConfusion)
      | literal value =>
          rw [found] at passed
          cases passed
          rw [own (.value after) (by rw [renderSlot, found])]
          exact python_inserted (fun _ _ => Slot.noConfusion)
      | py =>
          rw [found] at passed
          cases passed
          obtain ⟨expr, stands⟩ := sigil_py found
          rw [own (.python expr fields) (by rw [renderSlot, found, stands]; rfl)]
          exact iff_of_true (python_sigil stands) rfl
      | plain =>
          rw [found] at passed
          cases each : renderFields env ctx fields with
          | error problem =>
              simp only [each] at passed
              cases passed
          | ok rendered =>
              simp only [each] at passed
              cases passed
              rw [unmixed, found] at clear
              have clearItems := unmixedFields_iff.mp clear
              have plain : previewSlot ctx.row fields = none := by
                rw [previewSlot_eq, found, renderSlot, found]
              have inner : ∀ item ∈ fields.map Prod.snd, ∀ after, renderValue env ctx item = .ok after →
                  (PythonAlike (sketch (previewSlot ctx.row) item) after ↔
                    settled env ctx item = true) := by
                intro item member
                obtain ⟨entry, inside, rfl⟩ := List.mem_map.mp member
                exact ih entry inside (clearItems _ member)
              rw [sketch_object _ plain, python_fields each inner]
              simp

section Loaded

variable {convert : String → Option String}

theorem previewSlot_decoded {fields decoded : Data}
    (arrived : decodeFields convert fields = some decoded) (row : Data) :
    (previewSlot row fields = none ∧ previewSlot row decoded = none) ∨
      ∃ own other, previewSlot row fields = some own ∧ previewSlot row decoded = some other ∧
        (IsPython (some other) ↔ IsPython (some own)) := by
  unfold previewSlot
  rw [text_decoded arrived, text_decoded arrived, text_decoded arrived]
  cases (fields.lookup "$from").bind asStr with
  | some field => exact .inr ⟨_, _, rfl, rfl, Iff.rfl⟩
  | none =>
      cases (fields.lookup "$py").bind asStr with
      | some expr =>
          exact .inr ⟨_, _, rfl, rfl, iff_of_true ⟨expr, decoded, rfl⟩ ⟨expr, fields, rfl⟩⟩
      | none =>
          cases (fields.lookup "$fromResponse").bind asStr with
          | some step =>
              refine .inr ⟨_, _, rfl, rfl, iff_of_false ?_ ?_⟩
              · exact fun impossible => nomatch impossible.choose_spec.choose_spec
              · exact fun impossible => nomatch impossible.choose_spec.choose_spec
          | none =>
              rcases decoded_lookup arrived "$literal" with
                ⟨none, gone⟩ | ⟨value, after, held, found, _⟩
              · rw [none, gone]
                exact .inl ⟨rfl, rfl⟩
              · rw [held, found]
                refine .inr ⟨_, _, rfl, rfl, iff_of_false ?_ ?_⟩
                · exact fun impossible => nomatch impossible.choose_spec.choose_spec
                · exact fun impossible => nomatch impossible.choose_spec.choose_spec

theorem isPython_container {preview loaded : Sketch} {items decoded : List Value}
    {classified : Value → Sketch} (bare : preview.at [] = none) (bareLoaded : loaded.at [] = none)
    (arrived : decodeItems convert items = some decoded)
    (previews : preview.children = items.map classified)
    (loadeds : loaded.children = decoded.map classified)
    (inner : ∀ item ∈ items, ∀ after, decodeValue convert item = some after →
      ∀ place, IsPython ((classified after).at place) ↔ IsPython ((classified item).at place)) :
    ∀ place, IsPython (loaded.at place) ↔ IsPython (preview.at place) := by
  intro place
  cases place with
  | nil => rw [bare, bareLoaded]
  | cons index rest =>
      rw [Sketch.at, Sketch.at, previews, loadeds, List.getElem?_map, List.getElem?_map]
      cases stands : items[index]? with
      | none =>
          have beyond : decoded[index]? = none := by
            rw [List.getElem?_eq_none_iff, decodeItems_length arrived]
            exact List.getElem?_eq_none_iff.mp stands
          rw [beyond]
      | some item =>
          obtain ⟨after, itemArrived, afterStands⟩ := decodeItems_get arrived stands
          rw [afterStands]
          exact inner item (List.mem_of_getElem? stands) after itemArrived rest

theorem isPython_decoded (row : Data) (value : Value) :
    ∀ after, decodeValue convert value = some after →
      ∀ place, IsPython ((sketch (previewSlot row) after).at place) ↔
        IsPython ((sketch (previewSlot row) value).at place) := by
  induction value using Value.induction with
  | null =>
      intro after arrived place
      cases arrived
      exact Iff.rfl
  | bool value =>
      intro after arrived place
      cases arrived
      exact Iff.rfl
  | text value =>
      intro after arrived place
      cases arrived
      exact Iff.rfl
  | number text =>
      intro after arrived place
      obtain ⟨later, _, rfl⟩ := Option.map_eq_some_iff.mp arrived
      refine iff_of_false ?_ ?_
      · cases place <;> exact fun impossible => nomatch impossible.choose_spec.choose_spec
      · cases place <;> exact fun impossible => nomatch impossible.choose_spec.choose_spec
  | list items ih =>
      intro after arrived
      obtain ⟨later, itemsArrived, rfl⟩ := Option.map_eq_some_iff.mp arrived
      exact isPython_container rfl rfl itemsArrived (sketchItems_map _ items)
        (sketchItems_map _ later) ih
  | object fields ih =>
      intro after arrived
      obtain ⟨decoded, fieldsArrived, rfl⟩ := Option.map_eq_some_iff.mp arrived
      rcases previewSlot_decoded fieldsArrived row with ⟨plain, plainAfter⟩ | ⟨own, other, found, foundAfter, same⟩
      · rw [sketch_object _ plain, sketch_object _ plainAfter]
        refine @isPython_container _ (.object (sketchFields (previewSlot row) fields))
          (.object (sketchFields (previewSlot row) decoded)) _ _ (sketch (previewSlot row)) rfl rfl
          (decodeFields_values fieldsArrived) (sketchFields_map _ fields)
          (sketchFields_map _ decoded) ?_
        intro item member
        obtain ⟨entry, inside, rfl⟩ := List.mem_map.mp member
        exact ih entry inside
      · rw [sketch_slot _ found, sketch_slot _ foundAfter]
        intro place
        cases place with
        | nil => exact same
        | cons index rest => exact Iff.rfl

end Loaded

/-! ### Mappings and documents -/

theorem classifiedAlike_iff (env : RenderEnv) (ctx : Context) {mapping loaded : Data}
    (read : decodeFields (convertNumber env.fraction) mapping = some loaded) :
    ClassifiedAlike env ctx mapping loaded ↔ Previewed env ctx mapping loaded := by
  have slots : SlotsAlike (previewSketch ctx.row mapping) (renderSketch ctx.row loaded) ↔
      unmixedFields mapping = true ∧ KeptFields (convertNumber env.fraction) mapping := by
    unfold previewSketch renderSketch
    rw [sameSlot_fields read, unmixedFields_iff, keptFields_iff]
    exact sameSlot_each (decodeFields_values read) (fun item _ => sameSlot_iff ctx.row item)
  have clearLoaded (clear : unmixedFields mapping = true) : unmixedFields loaded = true := by
    rw [← clear]
    apply unmixedFields_decoded read
    exact fun item _ => unmixed_decoded item
  have markers : ∀ place, IsPython ((previewSketch ctx.row loaded).at place) ↔
      IsPython ((previewSketch ctx.row mapping).at place) :=
    isPython_container rfl rfl (decodeFields_values read) (sketchFields_map _ mapping)
      (sketchFields_map _ loaded) (fun item _ => isPython_decoded ctx.row item)
  have tier (clear : unmixedFields mapping = true) (prepared : Data)
      (passed : renderPayload env ctx loaded = .ok prepared) :
      PythonAlike (previewSketch ctx.row mapping) (.object prepared) ↔
        loaded.lookup "$py" = none ∧ settledFields env ctx loaded = true := by
    rw [← python_fields (renderPayload_fields passed) (fun item member =>
      python_iff item (unmixedFields_iff.mp (clearLoaded clear) item member))]
    refine forall_congr' ?_
    intro place
    exact iff_congr (markers place).symm Iff.rfl
  constructor
  · intro alike
    obtain ⟨clear, kept⟩ := slots.mp alike.slots
    exact ⟨clear, kept, fun prepared passed =>
      (tier clear prepared passed).mp (alike.python prepared passed)⟩
  · intro previewed
    refine ⟨renderPreview_eq ctx.row mapping, fun prepared passed => renderPayload_eq passed,
      slots.mpr ⟨previewed.unmixed, previewed.numbers⟩, ?_⟩
    intro prepared passed
    exact (tier previewed.unmixed prepared passed).mpr (previewed.settled prepared passed)

def OnFailure.name : OnFailure → String
  | .stop => "stop"
  | .continue => "continue"

def mappingDocument (payload : Data) : Value := .object [("payload", .object payload)]

def Step.document (step : Step) : Value :=
  .object ([("name", .text step.name)] ++ optionalField "mapping" (step.mapping.map mappingDocument) ++
    [("destination", step.destination.toValue)] ++
    optionalField "onFailure" (step.onFailure.map (fun choice => .text choice.name)))

/-- A template as the API holds it, in a `serde_json::Value`; `rest` has the fields
that both programs pass over. -/
structure TemplateDocument where
  template : RuleTemplate
  rest : Data
  fits : template.fitsSchema = true
  noSteps : rest.lookup "steps" = none
  noMapping : rest.lookup "mapping" = none

def TemplateDocument.json (document : TemplateDocument) : Value :=
  .object (optionalField "mapping" (document.template.mapping.map mappingDocument) ++
    optionalField "destination" (document.template.destination.map Destination.toValue) ++
    optionalField "steps" (document.template.steps.map (fun steps => .list (steps.map Step.document))) ++
    document.rest)

def Step.payloadTemplate (step : Step) : Data := step.mapping.getD []

private theorem payloadMapping_document (step : Step) :
    payloadMapping step.document = step.payloadTemplate := by
  unfold payloadMapping Step.payloadTemplate Step.document
  cases step.mapping with
  | none => cases step.onFailure <;> rfl
  | some payload => rfl

theorem extractSteps_document (document : TemplateDocument) :
    extractSteps document.json =
      document.template.orchestratorSteps.map (fun step => (step.name, step.payloadTemplate)) := by
  rw [orchestratorSteps_eq document.fits]
  have fits := document.fits
  unfold RuleTemplate.fitsSchema at fits
  unfold extractSteps TemplateDocument.json RuleTemplate.executionSteps
  split at fits
  · rename_i payload destination mapping destinationIs steps
    rw [mapping, destinationIs, steps]
    have none : getKey (.object (optionalField "mapping" ((some payload).map mappingDocument) ++
        optionalField "destination" ((some destination).map Destination.toValue) ++
        optionalField "steps" none ++ document.rest)) "steps" = none := document.noSteps
    simp only [Option.map_none, none]
    rfl
  · rename_i steps mapping destination some
    rw [mapping, destination, some]
    change List.map _ (steps.map Step.document) = _
    rw [List.map_map]
    apply List.map_congr_left
    intro step _
    exact Prod.ext rfl (payloadMapping_document step)
  · cases fits

/-- Of every step the preview has the name, and classifies its payload as the
renderer does with what `LoadTemplate` has read of it and the responses there are
by then. -/
structure DryRunAlike (env : RenderEnv) (row : Data) (responses : Nat → Data)
    (document : TemplateDocument) : Prop where
  names : (extractSteps document.json).map Prod.fst =
    document.template.orchestratorSteps.map Step.name
  payloads : ∀ (index : Nat) (name : String) (preview : Data) (step : Step) (loaded : Data),
    (extractSteps document.json)[index]? = some (name, preview) →
    document.template.orchestratorSteps[index]? = some step →
    decodeFields (convertNumber env.fraction) step.payloadTemplate = some loaded →
    ClassifiedAlike env { row := row, responses := responses index } preview loaded

theorem dryRunAlike_iff (env : RenderEnv) (row : Data) (responses : Nat → Data)
    (document : TemplateDocument) :
    DryRunAlike env row responses document ↔
      ∀ (index : Nat) (step : Step) (loaded : Data),
        document.template.orchestratorSteps[index]? = some step →
        decodeFields (convertNumber env.fraction) step.payloadTemplate = some loaded →
        Previewed env { row := row, responses := responses index } step.payloadTemplate loaded := by
  have steps := extractSteps_document document
  have at_ (index : Nat) : (extractSteps document.json)[index]? =
      (document.template.orchestratorSteps[index]?).map (fun step => (step.name, step.payloadTemplate)) := by
    rw [steps, List.getElem?_map]
  constructor
  · intro alike index step loaded stands read
    have own := alike.payloads index step.name step.payloadTemplate step loaded
      (by rw [at_, stands]; rfl) stands read
    exact (classifiedAlike_iff _ _ read).mp own
  · intro previewed
    constructor
    · rw [steps, List.map_map]
      rfl
    · intro index name preview step loaded found stands read
      rw [at_, stands] at found
      cases found
      exact (classifiedAlike_iff _ _ read).mpr (previewed index step loaded stands read)

def peopleDestination : Destination :=
  { type := "http", method := "POST", url := "https://crm.example.com/people" }

def mixedSigils : TemplateDocument where
  template :=
    { mapping := some [("kind", .object [("$py", .text "row['kind']"), ("$literal", .text "person")])]
      destination := some peopleDestination }
  rest := []
  fits := by decide
  noSteps := rfl
  noMapping := rfl

def largeConstant : TemplateDocument where
  template :=
    { mapping := some [("list", .number "9007199254740993")]
      destination := some peopleDestination }
  rest := []
  fits := by decide
  noSteps := rfl
  noMapping := rfl

/-- The preview shows the expression, and the orchestrator sends the literal; and a
constant of the template is rounded where it is loaded. -/
theorem mixed_sigils_differ :
    ¬DryRunAlike bareEnv [] (fun _ => []) mixedSigils ∧
      ¬DryRunAlike bareEnv [] (fun _ => []) largeConstant := by
  constructor
  · intro alike
    have own := alike.payloads 0 "main" _ _ _ rfl rfl rfl
    obtain ⟨value, wrong, _⟩ :=
      ((own.slots [0]).value (meaning (.text "person"))).mpr ⟨.text "person", rfl, rfl⟩
    cases wrong
  · intro alike
    have rounded : convertNumber bareEnv.fraction "9007199254740993" = some "9007199254740992" := by
      decide +kernel
    have read : decodeFields (convertNumber bareEnv.fraction)
        [("list", .number "9007199254740993")] = some [("list", .number "9007199254740992")] := by
      simp only [decodeFields, decodeValue, rounded, Option.map_some]
    have own := alike.payloads 0 "main" _ _ _ rfl rfl read
    obtain ⟨value, shown, means⟩ :=
      ((own.slots [0]).value (meaning (.number "9007199254740992"))).mpr ⟨_, rfl, rfl⟩
    cases shown
    have same : NumberText.value? "9007199254740993".toList =
        NumberText.value? "9007199254740992".toList := Meaning.number.inj means
    exact absurd same (by decide +kernel)

end MigrationPlatform.Template
