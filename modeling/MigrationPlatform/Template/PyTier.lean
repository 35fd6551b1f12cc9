/-
The two passes over a step's payload: the Go renderer, then the Python tier.

The second pass scans the output of the first for objects with a key `$py`. The
values that the first pass inserts are listed with their positions. Both passes
treat a container item by item, and what has nothing for them they leave alone.
-/

import MigrationPlatform.Connectors.DecodedValues
import MigrationPlatform.Template.Render
import Mathlib.Data.List.Forall2

namespace MigrationPlatform.Template

open MigrationPlatform.Connectors

mutual

def containsPy : Value → Bool
  | .object fields => (fields.lookup "$py").isSome || fieldsContainPy fields
  | .list items => itemsContainPy items
  | .null => false
  | .bool _ => false
  | .number _ => false
  | .text _ => false

def fieldsContainPy : List (String × Value) → Bool
  | [] => false
  | (_, value) :: rest => containsPy value || fieldsContainPy rest

def itemsContainPy : List Value → Bool
  | [] => false
  | value :: rest => containsPy value || itemsContainPy rest

end

/-- What a pass has evaluated, up to its end or its first failure. -/
structure PyRun (Result : Type) where
  evaluated : List Value
  result : Except String Result

namespace PyRun

variable {First Second : Type}

def ok (value : First) : PyRun First := { evaluated := [], result := .ok value }

def bind (first : PyRun First) (next : First → PyRun Second) : PyRun Second :=
  match first.result with
  | .error problem => { evaluated := first.evaluated, result := .error problem }
  | .ok value =>
      { evaluated := first.evaluated ++ (next value).evaluated, result := (next value).result }

def map (change : First → Second) (run : PyRun First) : PyRun Second :=
  { evaluated := run.evaluated, result := run.result.map change }

end PyRun

section Pass

-- the sandbox with the row in scope, as a function of the value under `$py`
variable (eval : Value → Except String Value)

mutual

def renderPyExpressions : Value → PyRun Value
  | .object fields =>
      match fields.lookup "$py" with
      | some code => { evaluated := [code], result := eval code }
      | none => (renderPyFields fields).map .object
  | .list items => (renderPyItems items).map .list
  | .null => .ok .null
  | .bool value => .ok (.bool value)
  | .number text => .ok (.number text)
  | .text value => .ok (.text value)

def renderPyFields : List (String × Value) → PyRun (List (String × Value))
  | [] => .ok []
  | (key, value) :: rest =>
      (renderPyExpressions value).bind (fun first =>
        (renderPyFields rest).map (fun later => (key, first) :: later))

def renderPyItems : List Value → PyRun (List Value)
  | [] => .ok []
  | value :: rest =>
      (renderPyExpressions value).bind (fun first =>
        (renderPyItems rest).map (fun later => first :: later))

end

inductive PayloadError
  | render (cause : RenderError)
  | python (problem : String)

structure StepPayload where
  evaluated : List Value
  result : Except PayloadError Value

/-- The result of the activity is decoded into a map, which may be nil. Its
numbers become `float64`. -/
def decodePayload (convert : String → Option String) : Value → Except PayloadError Value
  | .object fields =>
      match decodeFields convert fields with
      | some decoded => .ok (.object decoded)
      | none => .error (.python "unable to decode")
  | .null => .ok .null
  | _ => .error (.python "unable to decode")

def renderStepPayload (env : RenderEnv) (mapping : Option Data) (ctx : Context) : StepPayload :=
  match mapping with
  | none => { evaluated := [], result := .ok (.object []) }
  | some tpl =>
      match renderPayload env ctx tpl with
      | .error problem => { evaluated := [], result := .error (.render problem) }
      | .ok prepared =>
          if containsPy (.object prepared) = false then
            { evaluated := [], result := .ok (.object prepared) }
          else
            let run := renderPyExpressions eval (.object prepared)
            { evaluated := run.evaluated
              result :=
                match run.result with
                | .error problem => .error (.python problem)
                | .ok final => decodePayload (convertNumber env.fraction) final }

end Pass

mutual

/-- The `$py` expressions that stand in the template, outside its other sigils. -/
def writtenExpressions : Value → List Value
  | .object fields =>
      match sigil fields with
      | .rowField _ => []
      | .response _ _ => []
      | .literal _ => []
      | .py => (fields.lookup "$py").toList
      | .plain => (fields.lookup "$py").toList ++ writtenInFields fields
  | .list items => writtenInItems items
  | .null => []
  | .bool _ => []
  | .number _ => []
  | .text _ => []

def writtenInFields : List (String × Value) → List Value
  | [] => []
  | (_, value) :: rest => writtenExpressions value ++ writtenInFields rest

def writtenInItems : List Value → List Value
  | [] => []
  | value :: rest => writtenExpressions value ++ writtenInItems rest

end

def payloadExpressions (tpl : Data) : List Value :=
  (tpl.lookup "$py").toList ++ writtenInFields tpl

mutual

def pyExpressions : Value → List Value
  | .object fields =>
      match fields.lookup "$py" with
      | some code => [code]
      | none => pyInFields fields
  | .list items => pyInItems items
  | .null => []
  | .bool _ => []
  | .number _ => []
  | .text _ => []

def pyInFields : List (String × Value) → List Value
  | [] => []
  | (_, value) :: rest => pyExpressions value ++ pyInFields rest

def pyInItems : List Value → List Value
  | [] => []
  | value :: rest => pyExpressions value ++ pyInItems rest

end

mutual

/-- The numbers of a payload that no expression takes the place of. -/
def numbersLeft : Value → List String
  | .object fields =>
      match fields.lookup "$py" with
      | some _ => []
      | none => leftInFields fields
  | .list items => leftInItems items
  | .number literal => [literal]
  | .null => []
  | .bool _ => []
  | .text _ => []

def leftInFields : List (String × Value) → List String
  | [] => []
  | (_, value) :: rest => numbersLeft value ++ leftInFields rest

def leftInItems : List Value → List String
  | [] => []
  | value :: rest => numbersLeft value ++ leftInItems rest

end

/-- A value that a sigil puts into the payload. `underPy` says that the sigil
stands within an object of the template that has a key `$py` itself. -/
structure Insertion where
  position : List Nat
  value : Value
  underPy : Bool

def Insertion.below (index : Nat) (i : Insertion) : Insertion :=
  { i with position := index :: i.position }

section Insertions

variable (env : RenderEnv) (ctx : Context)

mutual

def insertions (underPy : Bool) : Value → List Insertion
  | .object fields =>
      match sigil fields with
      | .rowField field =>
          [{ position := [], value := (ctx.row.lookup field).getD .null, underPy := underPy }]
      | .response step path =>
          match ctx.resolveResponsePath env step path with
          | .error _ => []
          | .ok value => [{ position := [], value := value, underPy := underPy }]
      | .literal value => [{ position := [], value := value, underPy := underPy }]
      | .py => []
      | .plain => fieldInsertions (underPy || (fields.lookup "$py").isSome) 0 fields
  | .list items => itemInsertions underPy 0 items
  | .null => []
  | .bool _ => []
  | .number _ => []
  | .text _ => []

def fieldInsertions (underPy : Bool) (index : Nat) : List (String × Value) → List Insertion
  | [] => []
  | (_, value) :: rest =>
      (insertions underPy value).map (Insertion.below index) ++
        fieldInsertions underPy (index + 1) rest

def itemInsertions (underPy : Bool) (index : Nat) : List Value → List Insertion
  | [] => []
  | value :: rest =>
      (insertions underPy value).map (Insertion.below index) ++
        itemInsertions underPy (index + 1) rest

end

def payloadInsertions (tpl : Data) : List Insertion :=
  fieldInsertions env ctx (tpl.lookup "$py").isSome 0 tpl

end Insertions

def children : Value → List Value
  | .list items => items
  | .object fields => fields.map Prod.snd
  | _ => []

def valueAt : List Nat → Value → Option Value
  | [], value => some value
  | index :: rest, value => ((children value)[index]?).bind (valueAt rest)

section Passes

variable {env : RenderEnv} {ctx : Context} {eval : Value → Except String Value}

theorem renderItems_forall {items rendered : List Value}
    (passed : renderItems env ctx items = .ok rendered) :
    List.Forall₂ (fun value after => renderValue env ctx value = .ok after) items rendered := by
  induction items generalizing rendered with
  | nil =>
      cases passed
      exact .nil
  | cons value rest ih =>
      simp only [renderItems] at passed
      split at passed
      · cases passed
      rename_i first passedFirst
      split at passed
      · cases passed
      rename_i later passedLater
      cases passed
      exact .cons passedFirst (ih passedLater)

theorem renderFields_items {fields rendered : Data}
    (passed : renderFields env ctx fields = .ok rendered) :
    rendered.map Prod.fst = fields.map Prod.fst ∧
      renderItems env ctx (fields.map Prod.snd) = .ok (rendered.map Prod.snd) := by
  induction fields generalizing rendered with
  | nil =>
      cases passed
      exact ⟨rfl, rfl⟩
  | cons entry rest ih =>
      obtain ⟨key, value⟩ := entry
      simp only [renderFields] at passed
      split at passed
      · cases passed
      rename_i first passedFirst
      split at passed
      · cases passed
      rename_i later passedLater
      cases passed
      obtain ⟨keys, items⟩ := ih passedLater
      constructor
      · change key :: later.map Prod.fst = key :: rest.map Prod.fst
        rw [keys]
      · change renderItems env ctx (value :: rest.map Prod.snd) = .ok (first :: later.map Prod.snd)
        simp only [renderItems, passedFirst, items]

theorem renderPayload_fields {tpl prepared : Data} (passed : renderPayload env ctx tpl = .ok prepared) :
    renderFields env ctx tpl = .ok prepared := by
  induction tpl generalizing prepared with
  | nil => exact passed
  | cons entry rest ih =>
      obtain ⟨key, value⟩ := entry
      simp only [renderPayload] at passed
      split at passed
      · cases passed
      rename_i first passedFirst
      split at passed
      · cases passed
      rename_i later passedLater
      cases passed
      simp only [renderFields, passedFirst, ih passedLater]

theorem renderPyItems_forall {items rendered : List Value}
    (passed : (renderPyItems eval items).result = .ok rendered) :
    List.Forall₂ (fun value after => (renderPyExpressions eval value).result = .ok after)
      items rendered := by
  induction items generalizing rendered with
  | nil =>
      cases passed
      exact .nil
  | cons value rest ih =>
      simp only [renderPyItems, PyRun.bind, PyRun.map] at passed
      split at passed
      · cases passed
      rename_i first passedFirst
      cases passedLater : (renderPyItems eval rest).result with
      | error problem =>
          rw [passedLater] at passed
          cases passed
      | ok later =>
          rw [passedLater] at passed
          cases passed
          exact .cons passedFirst (ih passedLater)

theorem renderPyFields_items {fields rendered : Data}
    (passed : (renderPyFields eval fields).result = .ok rendered) :
    (renderPyItems eval (fields.map Prod.snd)).result = .ok (rendered.map Prod.snd) := by
  induction fields generalizing rendered with
  | nil =>
      cases passed
      rfl
  | cons entry rest ih =>
      obtain ⟨key, value⟩ := entry
      simp only [renderPyFields, PyRun.bind, PyRun.map] at passed
      split at passed
      · cases passed
      rename_i first passedFirst
      cases passedLater : (renderPyFields eval rest).result with
      | error problem =>
          rw [passedLater] at passed
          cases passed
      | ok later =>
          rw [passedLater] at passed
          cases passed
          change (renderPyItems eval (value :: rest.map Prod.snd)).result =
            .ok (first :: later.map Prod.snd)
          simp only [renderPyItems, PyRun.bind, PyRun.map, passedFirst, ih passedLater]
          rfl

theorem renderPyFields_evaluated (fields : Data) :
    (renderPyFields eval fields).evaluated =
      (renderPyItems eval (fields.map Prod.snd)).evaluated := by
  induction fields with
  | nil => rfl
  | cons entry rest ih =>
      obtain ⟨key, value⟩ := entry
      change (renderPyFields eval ((key, value) :: rest)).evaluated =
        (renderPyItems eval (value :: rest.map Prod.snd)).evaluated
      simp only [renderPyFields, renderPyItems, PyRun.bind, PyRun.map]
      split
      · rfl
      · rw [ih]

variable {items : List Value}

theorem mem_renderPyItems_evaluated {code : Value}
    (member : code ∈ (renderPyItems eval items).evaluated) :
    ∃ (index : Nat) (value : Value), items[index]? = some value ∧
      code ∈ (renderPyExpressions eval value).evaluated := by
  induction items with
  | nil => cases member
  | cons value rest ih =>
      simp only [renderPyItems, PyRun.bind, PyRun.map] at member
      split at member
      · exact ⟨0, value, rfl, member⟩
      · rcases List.mem_append.mp member with first | later
        · exact ⟨0, value, rfl, first⟩
        · obtain ⟨index, found, stands, inside⟩ := ih later
          exact ⟨index + 1, found, stands, inside⟩

theorem exists_of_forall₂ {Left Right : Type} {related : Left → Right → Prop}
    {lefts : List Left} {rights : List Right} (pairs : List.Forall₂ related lefts rights)
    {index : Nat} {left : Left} (stands : lefts[index]? = some left) :
    ∃ right, rights[index]? = some right ∧ related left right := by
  induction pairs generalizing index with
  | nil => cases stands
  | cons first _ ih =>
      cases index with
      | zero =>
          cases stands
          exact ⟨_, rfl, first⟩
      | succ index => exact ih stands

theorem fieldInsertions_items (underPy : Bool) (index : Nat) (fields : Data) :
    fieldInsertions env ctx underPy index fields =
      itemInsertions env ctx underPy index (fields.map Prod.snd) := by
  induction fields generalizing index with
  | nil => rfl
  | cons entry rest ih =>
      obtain ⟨key, value⟩ := entry
      change _ ++ fieldInsertions env ctx underPy (index + 1) rest = _
      rw [ih]
      rfl

theorem mem_itemInsertions {underPy : Bool} {start : Nat} {i : Insertion}
    (member : i ∈ itemInsertions env ctx underPy start items) :
    ∃ (index : Nat) (value : Value) (inner : Insertion), items[index]? = some value ∧
      inner ∈ insertions env ctx underPy value ∧ i = inner.below (start + index) := by
  induction items generalizing start with
  | nil => cases member
  | cons value rest ih =>
      rcases List.mem_append.mp member with first | later
      · obtain ⟨inner, inside, same⟩ := List.mem_map.mp first
        exact ⟨0, value, inner, rfl, inside, same.symm⟩
      · obtain ⟨index, found, inner, stands, inside, same⟩ := ih later
        refine ⟨index + 1, found, inner, stands, inside, ?_⟩
        rw [same]
        congr 1
        omega

theorem mem_itemInsertions_of {underPy : Bool} {index : Nat} {value : Value}
    {inner : Insertion} (stands : items[index]? = some value)
    (inside : inner ∈ insertions env ctx underPy value) (start : Nat) :
    inner.below (start + index) ∈ itemInsertions env ctx underPy start items := by
  induction items generalizing start index with
  | nil => cases stands
  | cons first rest ih =>
      cases index with
      | zero =>
          cases stands
          exact List.mem_append_left _ (List.mem_map_of_mem inside)
      | succ index =>
          apply List.mem_append_right
          have later := ih stands (start + 1)
          have same : start + 1 + index = start + (index + 1) := by omega
          rw [same] at later
          exact later

theorem insertions_underPy (value : Value) :
    ∀ i ∈ insertions env ctx true value, i.underPy = true := by
  induction value using Value.induction with
  | null => simp [insertions]
  | bool value => simp [insertions]
  | number text => simp [insertions]
  | text value => simp [insertions]
  | list items ih =>
      intro i member
      obtain ⟨index, found, inner, stands, inside, same⟩ := mem_itemInsertions member
      rw [same]
      exact ih found (List.mem_of_getElem? stands) inner inside
  | object fields ih =>
      intro i member
      unfold insertions at member
      split at member
      · rw [List.mem_singleton.mp member]
      · split at member
        · cases member
        · rw [List.mem_singleton.mp member]
      · rw [List.mem_singleton.mp member]
      · cases member
      · rw [Bool.true_or, fieldInsertions_items] at member
        obtain ⟨index, found, inner, stands, inside, same⟩ := mem_itemInsertions member
        obtain ⟨entry, entryMember, rfl⟩ := List.mem_map.mp (List.mem_of_getElem? stands)
        rw [same]
        exact ih entry entryMember inner inside

/-! ### Values that no pass changes -/

theorem renderItems_eq_self {items rendered : List Value}
    (passed : renderItems env ctx items = .ok rendered)
    (same : ∀ value ∈ items, ∀ after, renderValue env ctx value = .ok after → after = value) :
    rendered = items := by
  have pairs := renderItems_forall passed
  clear passed
  induction pairs with
  | nil => rfl
  | cons first _ ih =>
      rw [same _ List.mem_cons_self _ first,
        ih (fun value member => same value (List.mem_cons_of_mem _ member))]

theorem insertions_eq_nil {underPy : Bool} (empty : itemInsertions env ctx underPy 0 items = []) :
    ∀ item ∈ items, insertions env ctx underPy item = [] := by
  intro item member
  obtain ⟨index, stands⟩ := List.mem_iff_getElem?.mp member
  apply List.eq_nil_iff_forall_not_mem.mpr
  intro i inside
  have outer := mem_itemInsertions_of stands inside 0
  rw [empty] at outer
  cases outer

theorem renderValue_eq_self (value : Value) :
    ∀ underPy after, insertions env ctx underPy value = [] →
      renderValue env ctx value = .ok after → after = value := by
  induction value using Value.induction with
  | null =>
      intro underPy after _empty passed
      cases passed
      rfl
  | bool value =>
      intro underPy after _empty passed
      cases passed
      rfl
  | number text =>
      intro underPy after _empty passed
      cases passed
      rfl
  | text value =>
      intro underPy after _empty passed
      cases passed
      rfl
  | list items ih =>
      intro underPy after empty passed
      simp only [renderValue] at passed
      split at passed
      · cases passed
      rename_i rendered passedItems
      cases passed
      rw [renderItems_eq_self passedItems]
      intro item member afterItem passedItem
      exact ih item member underPy afterItem (insertions_eq_nil empty item member) passedItem
  | object fields ih =>
      intro underPy after empty passed
      simp only [renderValue] at passed
      simp only [insertions] at empty
      cases found : sigil fields with
      | rowField field =>
          rw [found] at empty
          cases empty
      | response step path =>
          rw [found] at empty passed
          simp only at empty passed
          rw [passed] at empty
          cases empty
      | literal value =>
          rw [found] at empty
          cases empty
      | py =>
          rw [found] at passed
          cases passed
          rfl
      | plain =>
          rw [found] at empty passed
          simp only at empty passed
          split at passed
          · cases passed
          rename_i rendered passedFields
          cases passed
          obtain ⟨keys, items⟩ := renderFields_items passedFields
          rw [fieldInsertions_items] at empty
          have values : rendered.map Prod.snd = fields.map Prod.snd := by
            apply renderItems_eq_self items
            intro item member afterItem passedItem
            have nothing := insertions_eq_nil empty item member
            obtain ⟨entry, entryMember, rfl⟩ := List.mem_map.mp member
            exact ih entry entryMember _ afterItem nothing passedItem
          rw [List.zip_of_prod keys values, ← List.zip_of_prod rfl rfl]

theorem fieldsContainPy_items (fields : Data) :
    fieldsContainPy fields = itemsContainPy (fields.map Prod.snd) := by
  induction fields with
  | nil => rfl
  | cons entry rest ih =>
      change (containsPy entry.2 || fieldsContainPy rest) = _
      rw [ih]
      rfl

theorem itemsContainPy_eq_true :
    itemsContainPy items = true ↔ ∃ value ∈ items, containsPy value = true := by
  induction items with
  | nil => simp [itemsContainPy]
  | cons value rest ih => simp [itemsContainPy, ih]

private theorem renderPyItems_eq_ok (same : ∀ value ∈ items, renderPyExpressions eval value = .ok value) :
    renderPyItems eval items = .ok items := by
  induction items with
  | nil => rfl
  | cons value rest ih =>
      unfold renderPyItems
      rw [same value List.mem_cons_self,
        ih (fun other member => same other (List.mem_cons_of_mem _ member))]
      rfl

private theorem renderPyFields_eq_ok {fields : Data}
    (same : ∀ entry ∈ fields, renderPyExpressions eval entry.2 = .ok entry.2) :
    renderPyFields eval fields = .ok fields := by
  induction fields with
  | nil => rfl
  | cons entry rest ih =>
      obtain ⟨key, value⟩ := entry
      unfold renderPyFields
      have first := same (key, value) List.mem_cons_self
      change renderPyExpressions eval value = .ok value at first
      rw [first, ih (fun other member => same other (List.mem_cons_of_mem _ member))]
      rfl

theorem renderPyExpressions_eq_ok (value : Value) (absent : containsPy value = false) :
    renderPyExpressions eval value = .ok value := by
  induction value using Value.induction with
  | null => rfl
  | bool value => rfl
  | number text => rfl
  | text value => rfl
  | list items ih =>
      have apart : ∀ item ∈ items, containsPy item = false := by
        intro item member
        rw [Bool.eq_false_iff]
        intro present
        have inside := itemsContainPy_eq_true.mpr ⟨item, member, present⟩
        change itemsContainPy items = false at absent
        rw [absent] at inside
        cases inside
      unfold renderPyExpressions
      rw [renderPyItems_eq_ok (fun item member => ih item member (apart item member))]
      rfl
  | object fields ih =>
      simp only [containsPy, Bool.or_eq_false_iff, Option.isSome_eq_false_iff,
        Option.isNone_iff_eq_none] at absent
      obtain ⟨noKey, noField⟩ := absent
      have apart : ∀ entry ∈ fields, containsPy entry.2 = false := by
        intro entry member
        rw [Bool.eq_false_iff]
        intro present
        rw [fieldsContainPy_items] at noField
        have inside := itemsContainPy_eq_true.mpr ⟨entry.2, List.mem_map_of_mem member, present⟩
        rw [noField] at inside
        cases inside
      unfold renderPyExpressions
      rw [noKey]
      simp only
      rw [renderPyFields_eq_ok (fun entry member => ih entry member (apart entry member))]
      rfl

end Passes

end MigrationPlatform.Template
