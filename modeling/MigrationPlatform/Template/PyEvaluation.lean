/-
Data in a payload is not evaluated as code, where that holds.

A value that the Go pass inserts is inert when it has no key `$py` and does not
stand in an object with one. Inert values come through the Python tier as they
are, and then only expressions of the template are evaluated; every other value
is changed by a sandbox that answers null. What the tier returns is decoded, which
changes the numbers that are no decimal of their `float64`.
-/

import MigrationPlatform.Template.PyTier

namespace MigrationPlatform.Template

open MigrationPlatform.Connectors

/-- Whatever the sandbox answers: only expressions of the template are
evaluated, and every inserted value stands in the final payload with the meaning
that it had. -/
def DataStaysData (env : RenderEnv) (ctx : Context) (tpl : Data) : Prop :=
  ∀ eval : Value → Except String Value,
    (∀ code ∈ (renderStepPayload eval env (some tpl) ctx).evaluated,
      code ∈ payloadExpressions tpl) ∧
    ∀ final, (renderStepPayload eval env (some tpl) ctx).result = .ok final →
      ∀ i ∈ payloadInsertions env ctx tpl,
        (valueAt i.position final).map meaning = some (meaning i.value)

section Passes

variable {env : RenderEnv} {ctx : Context} {eval : Value → Except String Value}

/-! ### What comes out of the second pass -/

theorem renderPyExpressions_children {value final : Value}
    (container : (∃ items, value = .list items) ∨
      ∃ fields, value = .object fields ∧ fields.lookup "$py" = none)
    (passed : (renderPyExpressions eval value).result = .ok final) :
    (renderPyItems eval (children value)).result = .ok (children final) := by
  rcases container with ⟨items, rfl⟩ | ⟨fields, rfl, noKey⟩
  · simp only [renderPyExpressions, PyRun.map] at passed
    cases passedItems : (renderPyItems eval items).result with
    | error problem =>
        rw [passedItems] at passed
        cases passed
    | ok rendered =>
        rw [passedItems] at passed
        cases passed
        exact passedItems
  · simp only [renderPyExpressions, noKey, PyRun.map] at passed
    cases passedFields : (renderPyFields eval fields).result with
    | error problem =>
        rw [passedFields] at passed
        cases passed
    | ok rendered =>
        rw [passedFields] at passed
        cases passed
        exact renderPyFields_items passedFields

theorem lookup_eq_none_of_keys {fields rendered : Data} {key : String}
    (keys : rendered.map Prod.fst = fields.map Prod.fst) :
    rendered.lookup key = none ↔ fields.lookup key = none := by
  rw [Data.lookup_none_iff, Data.lookup_none_iff, keys]

/-- A claim about a final value and the insertions of the template it came
from, of those insertions whose `underPy` is `flag`. It holds of the sigils
themselves, of objects that the sandbox replaces, and of a whole when it holds
of its parts. -/
structure Carried (eval : Value → Except String Value) (flag : Bool)
    (claim : Value → Insertion → Prop) : Prop where
  sigil : flag = false → ∀ after final, (renderPyExpressions eval after).result = .ok final →
    claim final { position := [], value := after, underPy := false }
  replaced : flag = true → ∀ code final, eval code = .ok final →
    ∀ index i, claim final (Insertion.below index i)
  part : ∀ final index item i, (children final)[index]? = some item → claim item i →
    claim final (i.below index)

variable {tpl prepared : Data}

section Carrying

variable {flag : Bool} {claim : Value → Insertion → Prop} (carried : Carried eval flag claim)

include carried

theorem itemInsertions_carried {items rendered : List Value} {final : Value}
    (passed : renderItems env ctx items = .ok rendered)
    (passedPy : (renderPyItems eval rendered).result = .ok (children final))
    (inner : ∀ item ∈ items, ∀ after, renderValue env ctx item = .ok after →
      ∀ finalItem, (renderPyExpressions eval after).result = .ok finalItem →
        ∀ i ∈ insertions env ctx false item, i.underPy = flag → claim finalItem i)
    {i : Insertion} (member : i ∈ itemInsertions env ctx false 0 items)
    (chosen : i.underPy = flag) : claim final i := by
  obtain ⟨index, item, inside, stands, insideMember, rfl⟩ := mem_itemInsertions member
  obtain ⟨after, afterStands, passedItem⟩ :=
    exists_of_forall₂ (renderItems_forall passed) stands
  obtain ⟨finalItem, finalStands, passedAfter⟩ :=
    exists_of_forall₂ (renderPyItems_forall passedPy) afterStands
  rw [Nat.zero_add]
  apply carried.part final index finalItem inside finalStands
  exact inner item (List.mem_of_getElem? stands) after passedItem finalItem passedAfter inside
    insideMember chosen

theorem fieldInsertions_carried {fields rendered : Data} {final : Value}
    (passed : renderFields env ctx fields = .ok rendered)
    (passedPy : (renderPyExpressions eval (.object rendered)).result = .ok final)
    (inner : ∀ entry ∈ fields, ∀ after, renderValue env ctx entry.2 = .ok after →
      ∀ finalItem, (renderPyExpressions eval after).result = .ok finalItem →
        ∀ i ∈ insertions env ctx false entry.2, i.underPy = flag → claim finalItem i)
    {i : Insertion} (member : i ∈ fieldInsertions env ctx (fields.lookup "$py").isSome 0 fields)
    (chosen : i.underPy = flag) : claim final i := by
  obtain ⟨keys, items⟩ := renderFields_items passed
  have same := @lookup_eq_none_of_keys _ _ "$py" keys
  rw [fieldInsertions_items] at member
  cases found : fields.lookup "$py" with
  | some code =>
      rw [found] at member
      obtain ⟨index, item, inside, _, insideMember, rfl⟩ := mem_itemInsertions member
      have under : inside.underPy = true := insertions_underPy item inside insideMember
      cases foundAfter : rendered.lookup "$py" with
      | none =>
          rw [same.mp foundAfter] at found
          cases found
      | some codeAfter =>
          simp only [renderPyExpressions, foundAfter] at passedPy
          exact carried.replaced (chosen.symm.trans under) codeAfter final passedPy _ inside
  | none =>
      rw [found] at member
      have passedItems :=
        renderPyExpressions_children (.inr ⟨rendered, rfl, same.mpr found⟩) passedPy
      apply itemInsertions_carried carried items passedItems _ member chosen
      intro item itemMember
      obtain ⟨entry, entryMember, rfl⟩ := List.mem_map.mp itemMember
      exact inner entry entryMember

theorem insertions_carried (value : Value) :
    ∀ after, renderValue env ctx value = .ok after →
      ∀ final, (renderPyExpressions eval after).result = .ok final →
        ∀ i ∈ insertions env ctx false value, i.underPy = flag → claim final i := by
  induction value using Value.induction with
  | null => simp [insertions]
  | bool value => simp [insertions]
  | number text => simp [insertions]
  | text value => simp [insertions]
  | list items ih =>
      intro after passed final passedPy i member chosen
      simp only [renderValue] at passed
      split at passed
      · cases passed
      rename_i rendered passedItems
      cases passed
      exact itemInsertions_carried carried passedItems
        (renderPyExpressions_children (.inl ⟨rendered, rfl⟩) passedPy) ih member chosen
  | object fields ih =>
      intro after passed final passedPy i member chosen
      simp only [renderValue] at passed
      simp only [insertions] at member
      cases found : sigil fields with
      | rowField field =>
          rw [found] at member passed
          rw [List.mem_singleton.mp member] at chosen ⊢
          cases passed
          exact carried.sigil chosen.symm _ final passedPy
      | response step path =>
          rw [found] at member passed
          simp only at member passed
          rw [passed] at member
          rw [List.mem_singleton.mp member] at chosen ⊢
          exact carried.sigil chosen.symm _ final passedPy
      | literal literalValue =>
          rw [found] at member passed
          rw [List.mem_singleton.mp member] at chosen ⊢
          cases passed
          exact carried.sigil chosen.symm _ final passedPy
      | py =>
          rw [found] at member
          cases member
      | plain =>
          rw [found] at member passed
          simp only [Bool.false_or] at member passed
          split at passed
          · cases passed
          rename_i rendered passedFields
          cases passed
          exact fieldInsertions_carried carried passedFields passedPy ih member chosen

theorem payloadInsertions_carried {final : Value}
    (passed : renderPayload env ctx tpl = .ok prepared)
    (passedPy : (renderPyExpressions eval (.object prepared)).result = .ok final) :
    ∀ i ∈ payloadInsertions env ctx tpl, i.underPy = flag → claim final i := by
  intro i member chosen
  apply fieldInsertions_carried carried (renderPayload_fields passed) passedPy _ member chosen
  intro entry _member
  exact insertions_carried carried entry.2

end Carrying

theorem carried_rendered : Carried eval false (fun final i =>
    ∃ value, (renderPyExpressions eval i.value).result = .ok value ∧
      valueAt i.position final = some value) := by
  constructor
  · intro _free after final passed
    exact ⟨final, passed, rfl⟩
  · intro impossible
    cases impossible
  · rintro final index item i stands ⟨value, rendersTo, found⟩
    refine ⟨value, rendersTo, ?_⟩
    change ((children final)[index]?).bind (valueAt i.position) = some value
    rw [stands]
    exact found

private theorem carried_lost : Carried (fun _ => .ok .null) true (fun final i =>
    valueAt i.position final = none) := by
  constructor
  · intro impossible
    cases impossible
  · intro _under code final answered index i
    cases answered
    rfl
  · intro final index item i stands lost
    change ((children final)[index]?).bind (valueAt i.position) = none
    rw [stands]
    exact lost

/-- The inserted value reaches the Python tier outside any `$py` object and has
none within itself. -/
def Insertion.Inert (i : Insertion) : Prop := i.underPy = false ∧ containsPy i.value = false

private theorem renderFields_eq_self {fields rendered : Data} {underPy : Bool}
    (empty : fieldInsertions env ctx underPy 0 fields = [])
    (passed : renderFields env ctx fields = .ok rendered) : rendered = fields := by
  obtain ⟨keys, items⟩ := renderFields_items passed
  rw [fieldInsertions_items] at empty
  have values : rendered.map Prod.snd = fields.map Prod.snd := by
    apply renderItems_eq_self items
    intro item member after passedItem
    exact renderValue_eq_self item underPy after (insertions_eq_nil empty item member) passedItem
  rw [List.zip_of_prod keys values, ← List.zip_of_prod rfl rfl]

private theorem writtenInFields_items (fields : Data) :
    writtenInFields fields = writtenInItems (fields.map Prod.snd) := by
  induction fields with
  | nil => rfl
  | cons entry rest ih =>
      change writtenExpressions entry.2 ++ writtenInFields rest = _
      rw [ih]
      rfl

private theorem mem_writtenInItems {items : List Value} {item code : Value} (member : item ∈ items)
    (written : code ∈ writtenExpressions item) : code ∈ writtenInItems items := by
  induction items with
  | nil => cases member
  | cons first rest ih =>
      rcases List.mem_cons.mp member with same | later
      · subst same
        exact List.mem_append_left _ written
      · exact List.mem_append_right _ (ih later)

theorem itemsEvaluated_written {items rendered : List Value}
    (passed : renderItems env ctx items = .ok rendered)
    (inert : ∀ i ∈ itemInsertions env ctx false 0 items, i.Inert)
    (inner : ∀ item ∈ items, ∀ after, renderValue env ctx item = .ok after →
      (∀ i ∈ insertions env ctx false item, i.Inert) →
        ∀ code ∈ (renderPyExpressions eval after).evaluated, code ∈ writtenExpressions item)
    {code : Value} (evaluated : code ∈ (renderPyItems eval rendered).evaluated) :
    code ∈ writtenInItems items := by
  obtain ⟨index, after, afterStands, inside⟩ := mem_renderPyItems_evaluated evaluated
  obtain ⟨item, stands, passedItem⟩ :=
    exists_of_forall₂ (List.Forall₂.flip (renderItems_forall passed)) afterStands
  have member := List.mem_of_getElem? stands
  apply mem_writtenInItems member
  apply inner item member after passedItem _ code inside
  intro i insideMember
  have outer := inert (i.below (0 + index)) (mem_itemInsertions_of stands insideMember 0)
  exact outer

theorem fieldsEvaluated_written {fields rendered : Data}
    (passed : renderFields env ctx fields = .ok rendered)
    (inert : ∀ i ∈ fieldInsertions env ctx (fields.lookup "$py").isSome 0 fields, i.Inert)
    (inner : ∀ entry ∈ fields, ∀ after, renderValue env ctx entry.2 = .ok after →
      (∀ i ∈ insertions env ctx false entry.2, i.Inert) →
        ∀ code ∈ (renderPyExpressions eval after).evaluated, code ∈ writtenExpressions entry.2)
    {code : Value}
    (evaluated : code ∈ (renderPyExpressions eval (.object rendered)).evaluated) :
    code ∈ (fields.lookup "$py").toList ++ writtenInFields fields := by
  cases found : fields.lookup "$py" with
  | some own =>
      -- whatever is inserted here would be under a key `$py`, so nothing is
      have empty : fieldInsertions env ctx true 0 fields = [] := by
        apply List.eq_nil_iff_forall_not_mem.mpr
        intro i member
        rw [found] at inert
        have free := (inert i member).1
        rw [fieldInsertions_items] at member
        obtain ⟨index, item, inside, _, insideMember, rfl⟩ := mem_itemInsertions member
        have under : inside.underPy = true := insertions_underPy item inside insideMember
        change inside.underPy = false at free
        rw [under] at free
        cases free
      have same := renderFields_eq_self empty passed
      subst same
      simp only [renderPyExpressions, found] at evaluated
      apply List.mem_append_left
      exact evaluated
  | none =>
      rw [found, fieldInsertions_items] at inert
      obtain ⟨keys, items⟩ := renderFields_items passed
      have noKey := (@lookup_eq_none_of_keys _ _ "$py" keys).mpr found
      simp only [renderPyExpressions, noKey, PyRun.map] at evaluated
      rw [renderPyFields_evaluated] at evaluated
      apply List.mem_append_right
      rw [writtenInFields_items]
      apply itemsEvaluated_written items inert _ evaluated
      intro item member
      obtain ⟨entry, entryMember, rfl⟩ := List.mem_map.mp member
      exact inner entry entryMember

theorem evaluated_written (value : Value) :
    ∀ after, renderValue env ctx value = .ok after →
      (∀ i ∈ insertions env ctx false value, i.Inert) →
        ∀ code ∈ (renderPyExpressions eval after).evaluated, code ∈ writtenExpressions value := by
  -- a value that a sigil inserts has nothing to evaluate
  have nothing : ∀ after code, containsPy after = false →
      code ∉ (renderPyExpressions eval after).evaluated := by
    intro after code absent evaluated
    rw [renderPyExpressions_eq_ok after absent] at evaluated
    cases evaluated
  induction value using Value.induction with
  | null =>
      intro after passed _inert code evaluated
      cases passed
      exact absurd evaluated (nothing _ _ rfl)
  | bool value =>
      intro after passed _inert code evaluated
      cases passed
      exact absurd evaluated (nothing _ _ rfl)
  | number text =>
      intro after passed _inert code evaluated
      cases passed
      exact absurd evaluated (nothing _ _ rfl)
  | text value =>
      intro after passed _inert code evaluated
      cases passed
      exact absurd evaluated (nothing _ _ rfl)
  | list items ih =>
      intro after passed inert code evaluated
      simp only [renderValue] at passed
      split at passed
      · cases passed
      rename_i rendered passedItems
      cases passed
      exact itemsEvaluated_written passedItems inert ih evaluated
  | object fields ih =>
      intro after passed inert code evaluated
      simp only [renderValue] at passed
      simp only [insertions] at inert
      simp only [writtenExpressions]
      cases found : sigil fields with
      | rowField field =>
          rw [found] at inert passed
          cases passed
          exact absurd evaluated (nothing _ _ (inert _ List.mem_cons_self).2)
      | response step path =>
          rw [found] at inert passed
          simp only at inert passed
          rw [passed] at inert
          exact absurd evaluated (nothing _ _ (inert _ List.mem_cons_self).2)
      | literal literalValue =>
          rw [found] at inert passed
          cases passed
          exact absurd evaluated (nothing _ _ (inert _ List.mem_cons_self).2)
      | py =>
          rw [found] at passed
          cases passed
          cases own : fields.lookup "$py" with
          | none =>
              simp [sigil, own] at found
              grind
          | some ownCode =>
              simp only [renderPyExpressions, own] at evaluated
              exact evaluated
      | plain =>
          rw [found] at inert passed
          simp only [Bool.false_or] at inert passed
          split at passed
          · cases passed
          rename_i rendered passedFields
          cases passed
          exact fieldsEvaluated_written passedFields inert ih evaluated

/-! ### A sandbox that answers null -/

private theorem renderPyItems_null_succeeds {items : List Value}
    (inner : ∀ item ∈ items, ∃ after, (renderPyExpressions (fun _ => .ok .null) item).result =
      .ok after) :
    ∃ rendered, (renderPyItems (fun _ => .ok .null) items).result = .ok rendered := by
  induction items with
  | nil => exact ⟨[], rfl⟩
  | cons item rest ih =>
      obtain ⟨first, passedFirst⟩ := inner item List.mem_cons_self
      obtain ⟨later, passedLater⟩ :=
        ih (fun other member => inner other (List.mem_cons_of_mem _ member))
      refine ⟨first :: later, ?_⟩
      simp only [renderPyItems, PyRun.bind, PyRun.map, passedFirst, passedLater]
      rfl

private theorem renderPyFields_null_succeeds {fields : Data}
    (inner : ∀ entry ∈ fields, ∃ after,
      (renderPyExpressions (fun _ => .ok .null) entry.2).result = .ok after) :
    ∃ rendered, (renderPyFields (fun _ => .ok .null) fields).result = .ok rendered := by
  induction fields with
  | nil => exact ⟨[], rfl⟩
  | cons entry rest ih =>
      obtain ⟨key, value⟩ := entry
      obtain ⟨first, passedFirst⟩ := inner (key, value) List.mem_cons_self
      obtain ⟨later, passedLater⟩ :=
        ih (fun other member => inner other (List.mem_cons_of_mem _ member))
      refine ⟨(key, first) :: later, ?_⟩
      simp only [renderPyFields, PyRun.bind, PyRun.map, passedFirst, passedLater]
      rfl

theorem renderPyExpressions_null_succeeds (value : Value) :
    ∃ final, (renderPyExpressions (fun _ => .ok .null) value).result = .ok final := by
  induction value using Value.induction with
  | null => exact ⟨_, rfl⟩
  | bool value => exact ⟨_, rfl⟩
  | number text => exact ⟨_, rfl⟩
  | text value => exact ⟨_, rfl⟩
  | list items ih =>
      obtain ⟨rendered, passed⟩ := renderPyItems_null_succeeds ih
      refine ⟨.list rendered, ?_⟩
      simp only [renderPyExpressions, PyRun.map, passed]
      rfl
  | object fields ih =>
      cases found : fields.lookup "$py" with
      | some code =>
          refine ⟨.null, ?_⟩
          simp only [renderPyExpressions, found]
      | none =>
          obtain ⟨rendered, passed⟩ := renderPyFields_null_succeeds ih
          refine ⟨.object rendered, ?_⟩
          simp only [renderPyExpressions, found, PyRun.map, passed]
          rfl

theorem meaningFields_items (fields : Data) :
    (meaningFields fields).map Prod.snd = meaningItems (fields.map Prod.snd) := by
  induction fields with
  | nil => rfl
  | cons field rest ih =>
      obtain ⟨key, value⟩ := field
      rw [meaningFields, List.map_cons, List.map_cons, meaningItems, ih]

theorem meaning_of_items {convert : String → Option String} {items rendered decoded : List Value}
    (passed : (renderPyItems eval items).result = .ok rendered)
    (arrived : decodeItems convert rendered = some decoded)
    (same : meaningItems decoded = meaningItems items) :
    ∀ item ∈ items, ∃ final after, (renderPyExpressions eval item).result = .ok final ∧
      decodeValue convert final = some after ∧ meaning after = meaning item := by
  have pairs := renderPyItems_forall passed
  clear passed
  induction pairs generalizing decoded with
  | nil => exact List.forall_mem_nil _
  | cons first _ ih =>
      unfold decodeItems at arrived
      split at arrived
      · rename_i own later firstPassed laterPassed
        cases arrived
        rw [meaningItems, meaningItems, List.cons.injEq] at same
        exact List.forall_mem_cons.mpr
          ⟨⟨_, own, first, firstPassed, same.1⟩, ih laterPassed same.2⟩
      · cases arrived

theorem renderPyExpressions_null_changes {convert : String → Option String} (value : Value) :
    containsPy value = true → ∀ final after,
      (renderPyExpressions (fun _ => .ok .null) value).result = .ok final →
      decodeValue convert final = some after → meaning after ≠ meaning value := by
  induction value using Value.induction with
  | null => simp [containsPy]
  | bool value => simp [containsPy]
  | number text => simp [containsPy]
  | text value => simp [containsPy]
  | list items ih =>
      intro present final after passed arrived equal
      obtain ⟨item, member, itemPresent⟩ := itemsContainPy_eq_true.mp present
      simp only [renderPyExpressions, PyRun.map] at passed
      cases passedItems : (renderPyItems (fun _ => .ok .null) items).result with
      | error problem =>
          rw [passedItems] at passed
          cases passed
      | ok rendered =>
          rw [passedItems] at passed
          cases passed
          obtain ⟨decoded, itemsArrived, rfl⟩ := Option.map_eq_some_iff.mp arrived
          obtain ⟨own, last, passedItem, itemArrived, same⟩ :=
            meaning_of_items passedItems itemsArrived (Meaning.list.inj equal) item member
          exact ih item member itemPresent own last passedItem itemArrived same
  | object fields ih =>
      intro present final after passed arrived equal
      cases found : fields.lookup "$py" with
      | some code =>
          simp only [renderPyExpressions, found] at passed
          cases passed
          cases arrived
          cases equal
      | none =>
          simp only [containsPy, found, Option.isSome_none, Bool.false_or] at present
          rw [fieldsContainPy_items] at present
          obtain ⟨item, member, itemPresent⟩ := itemsContainPy_eq_true.mp present
          obtain ⟨entry, entryMember, rfl⟩ := List.mem_map.mp member
          simp only [renderPyExpressions, found, PyRun.map] at passed
          cases passedFields : (renderPyFields (fun _ => .ok .null) fields).result with
          | error problem =>
              rw [passedFields] at passed
              cases passed
          | ok rendered =>
              rw [passedFields] at passed
              cases passed
              obtain ⟨decoded, fieldsArrived, rfl⟩ := Option.map_eq_some_iff.mp arrived
              have itemsArrived : decodeItems convert (rendered.map Prod.snd) =
                  some (decoded.map Prod.snd) := by
                rw [← decodeFields_items, fieldsArrived, Option.map_some]
              have items := congrArg (List.map Prod.snd) (Meaning.object.inj equal)
              rw [meaningFields_items, meaningFields_items] at items
              obtain ⟨own, last, passedItem, itemArrived, same⟩ := meaning_of_items
                (renderPyFields_items passedFields) itemsArrived items entry.2 member
              exact ih entry entryMember itemPresent own last passedItem itemArrived same

private theorem renderPyExpressions_object (eval : Value → Except String Value) {fields : Data}
    {final : Value} (passed : (renderPyExpressions eval (.object fields)).result = .ok final) :
    (∃ rendered, final = .object rendered) ∨ ∃ code, eval code = .ok final := by
  cases found : fields.lookup "$py" with
  | some code =>
      simp only [renderPyExpressions, found] at passed
      exact .inr ⟨code, passed⟩
  | none =>
      simp only [renderPyExpressions, found, PyRun.map] at passed
      cases passedFields : (renderPyFields eval fields).result with
      | error problem =>
          rw [passedFields] at passed
          cases passed
      | ok rendered =>
          rw [passedFields] at passed
          cases passed
          exact .inl ⟨rendered, rfl⟩

private theorem decodePayload_eq_ok {convert : String → Option String} {value final : Value}
    (decoded : decodePayload convert value = .ok final) : decodeValue convert value = some final := by
  cases value with
  | object fields =>
      unfold decodePayload at decoded
      simp only at decoded
      split at decoded
      · rename_i own passed
        cases decoded
        rw [decodeValue, passed, Option.map_some]
      · cases decoded
  | null =>
      cases decoded
      rfl
  | bool value => cases decoded
  | number text => cases decoded
  | text value => cases decoded
  | list items => cases decoded

/-- How the numbers of a rendered payload are read: where the Python tier is not
asked, they stay as they are. -/
def resultNumber (env : RenderEnv) (prepared : Data) : String → Option String :=
  if containsPy (.object prepared) = false then some else convertNumber env.fraction

/-- Where the Go pass succeeds, the payload is that of the Python pass on its
output, which is asked and decoded only where there is something to evaluate. -/
theorem renderStepPayload_eq (passed : renderPayload env ctx tpl = .ok prepared) :
    (renderStepPayload eval env (some tpl) ctx).evaluated =
        (renderPyExpressions eval (.object prepared)).evaluated ∧
      ∀ final, (renderStepPayload eval env (some tpl) ctx).result = .ok final →
        ∃ value, (renderPyExpressions eval (.object prepared)).result = .ok value ∧
          decodeValue (resultNumber env prepared) value = some final := by
  unfold renderStepPayload resultNumber
  simp only [passed]
  by_cases absent : containsPy (.object prepared) = false
  · rw [if_pos absent, if_pos absent, renderPyExpressions_eq_ok _ absent]
    refine ⟨rfl, ?_⟩
    intro final same
    cases same
    exact ⟨.object prepared, rfl, decodeValue_some _⟩
  · rw [if_neg absent, if_neg absent]
    refine ⟨rfl, ?_⟩
    intro final decoded
    simp only at decoded
    split at decoded
    · cases decoded
    · rename_i value passedPy
      exact ⟨value, passedPy, decodePayload_eq_ok decoded⟩

/-! ### What decoding does to it -/

theorem decodeValue_children {convert : String → Option String} {value decoded : Value}
    (passed : decodeValue convert value = some decoded) :
    decodeItems convert (children value) = some (children decoded) := by
  cases value with
  | list items =>
      obtain ⟨later, itemsPassed, rfl⟩ := Option.map_eq_some_iff.mp passed
      exact itemsPassed
  | object fields =>
      obtain ⟨later, fieldsPassed, rfl⟩ := Option.map_eq_some_iff.mp passed
      change decodeItems convert (fields.map Prod.snd) = _
      rw [← decodeFields_items, fieldsPassed]
      rfl
  | number text =>
      obtain ⟨later, _, rfl⟩ := Option.map_eq_some_iff.mp passed
      rfl
  | null =>
      cases passed
      rfl
  | bool value =>
      cases passed
      rfl
  | text value =>
      cases passed
      rfl

theorem decodeValue_valueAt {convert : String → Option String} {position : List Nat} :
    ∀ {value decoded inner : Value}, decodeValue convert value = some decoded →
      valueAt position value = some inner →
      ∃ after, decodeValue convert inner = some after ∧ valueAt position decoded = some after := by
  induction position with
  | nil =>
      intro value decoded inner passed stands
      cases stands
      exact ⟨decoded, passed, rfl⟩
  | cons index rest ih =>
      intro value decoded inner passed stands
      obtain ⟨item, first, inside⟩ := Option.bind_eq_some_iff.mp stands
      obtain ⟨after, itemPassed, found⟩ := decodeItems_get (decodeValue_children passed) first
      obtain ⟨last, innerPassed, located⟩ := ih itemPassed inside
      refine ⟨last, innerPassed, ?_⟩
      change ((children decoded)[index]?).bind (valueAt rest) = some last
      rw [found]
      exact located

theorem decodeItems_length {convert : String → Option String} {items decoded : List Value}
    (passed : decodeItems convert items = some decoded) : decoded.length = items.length := by
  induction items generalizing decoded with
  | nil =>
      cases passed
      rfl
  | cons item rest ih =>
      unfold decodeItems at passed
      split at passed
      · rename_i first later firstPassed laterPassed
        cases passed
        rw [List.length_cons, List.length_cons, ih laterPassed]
      · cases passed

private theorem decodeValue_valueAt_none {convert : String → Option String} {position : List Nat} :
    ∀ {value decoded : Value}, decodeValue convert value = some decoded →
      valueAt position value = none → valueAt position decoded = none := by
  induction position with
  | nil => exact fun _ impossible => nomatch impossible
  | cons index rest ih =>
      intro value decoded passed missing
      have itemsPassed := decodeValue_children passed
      change ((children decoded)[index]?).bind (valueAt rest) = none
      change ((children value)[index]?).bind (valueAt rest) = none at missing
      cases stands : (children value)[index]? with
      | some item =>
          obtain ⟨after, itemPassed, found⟩ := decodeItems_get itemsPassed stands
          rw [stands] at missing
          rw [found]
          exact ih itemPassed missing
      | none =>
          have beyond : (children decoded)[index]? = none := by
            rw [List.getElem?_eq_none_iff, decodeItems_length itemsPassed]
            exact List.getElem?_eq_none_iff.mp stands
          rw [beyond]
          rfl

theorem pyInFields_items (fields : Data) :
    pyInFields fields = pyInItems (fields.map Prod.snd) := by
  induction fields with
  | nil => rfl
  | cons entry rest ih => rw [pyInFields, ih, List.map_cons, pyInItems]

theorem leftInFields_items (fields : Data) :
    leftInFields fields = leftInItems (fields.map Prod.snd) := by
  induction fields with
  | nil => rfl
  | cons entry rest ih => rw [leftInFields, ih, List.map_cons, leftInItems]

private theorem mem_pyInItems {items : List Value} {code : Value} :
    code ∈ pyInItems items ↔ ∃ item ∈ items, code ∈ pyExpressions item := by
  induction items with
  | nil => simp [pyInItems]
  | cons item rest ih => simp [pyInItems, ih]

theorem mem_leftInItems {items : List Value} {literal : String} :
    literal ∈ leftInItems items ↔ ∃ item ∈ items, literal ∈ numbersLeft item := by
  induction items with
  | nil => simp [leftInItems]
  | cons item rest ih => simp [leftInItems, ih]

theorem evaluated_found (value : Value) :
    ∀ code ∈ (renderPyExpressions eval value).evaluated, code ∈ pyExpressions value := by
  have each : ∀ items : List Value, (∀ item ∈ items,
      ∀ code ∈ (renderPyExpressions eval item).evaluated, code ∈ pyExpressions item) →
      ∀ code ∈ (renderPyItems eval items).evaluated, code ∈ pyInItems items := by
    intro items inner code member
    obtain ⟨index, item, stands, inside⟩ := mem_renderPyItems_evaluated member
    have among := List.mem_of_getElem? stands
    exact mem_pyInItems.mpr ⟨item, among, inner item among code inside⟩
  induction value using Value.induction with
  | null => exact fun _ impossible => nomatch impossible
  | bool value => exact fun _ impossible => nomatch impossible
  | number text => exact fun _ impossible => nomatch impossible
  | text value => exact fun _ impossible => nomatch impossible
  | list items ih => exact each items ih
  | object fields ih =>
      intro code member
      unfold renderPyExpressions at member
      unfold pyExpressions
      cases found : fields.lookup "$py" with
      | some own =>
          rw [found] at member
          exact member
      | none =>
          rw [found] at member
          simp only [PyRun.map, renderPyFields_evaluated] at member
          rw [pyInFields_items]
          apply each _ _ code member
          intro item inside
          obtain ⟨entry, entryMember, rfl⟩ := List.mem_map.mp inside
          exact ih entry entryMember

theorem null_evaluates (value : Value) :
    (renderPyExpressions (fun _ => .ok .null) value).evaluated = pyExpressions value := by
  have each : ∀ items : List Value, (∀ item ∈ items,
      (renderPyExpressions (fun _ => .ok .null) item).evaluated = pyExpressions item) →
      (renderPyItems (fun _ => .ok .null) items).evaluated = pyInItems items := by
    intro items
    induction items with
    | nil => exact fun _ => rfl
    | cons item rest ih =>
        intro inner
        obtain ⟨first, passed⟩ := renderPyExpressions_null_succeeds item
        have later := ih (fun other member => inner other (List.mem_cons_of_mem _ member))
        simp only [renderPyItems, PyRun.bind, PyRun.map, passed, pyInItems, later,
          inner item List.mem_cons_self]
  induction value using Value.induction with
  | null => rfl
  | bool value => rfl
  | number text => rfl
  | text value => rfl
  | list items ih => exact each items ih
  | object fields ih =>
      unfold renderPyExpressions pyExpressions
      cases found : fields.lookup "$py" with
      | some own => rfl
      | none =>
          simp only [PyRun.map, renderPyFields_evaluated]
          rw [pyInFields_items]
          apply each
          intro item inside
          obtain ⟨entry, entryMember, rfl⟩ := List.mem_map.mp inside
          exact ih entry entryMember

section OutOfRange

variable {convert : String → Option String}

theorem decodeValue_of_left (value : Value) :
    ∀ {final}, (renderPyExpressions eval value).result = .ok final →
      (∃ literal ∈ numbersLeft value, convert literal = none) → decodeValue convert final = none := by
  have each : ∀ items rendered : List Value, (renderPyItems eval items).result = .ok rendered →
      (∀ item ∈ items, ∀ {final}, (renderPyExpressions eval item).result = .ok final →
        (∃ literal ∈ numbersLeft item, convert literal = none) → decodeValue convert final = none) →
      (∃ literal ∈ leftInItems items, convert literal = none) →
      decodeItems convert rendered = none := by
    rintro items rendered passed inner ⟨literal, member, wide⟩
    obtain ⟨item, among, inside⟩ := mem_leftInItems.mp member
    obtain ⟨index, stands⟩ := List.mem_iff_getElem?.mp among
    obtain ⟨after, afterStands, passedItem⟩ :=
      exists_of_forall₂ (renderPyItems_forall passed) stands
    exact decodeItems_eq_none.mpr ⟨after, List.mem_of_getElem? afterStands,
      inner item among passedItem ⟨literal, inside, wide⟩⟩
  induction value using Value.induction with
  | null => exact fun _ impossible => absurd impossible.choose_spec.1 List.not_mem_nil
  | bool value => exact fun _ impossible => absurd impossible.choose_spec.1 List.not_mem_nil
  | text value => exact fun _ impossible => absurd impossible.choose_spec.1 List.not_mem_nil
  | number text =>
      rintro final passed ⟨literal, member, wide⟩
      cases passed
      rw [List.mem_singleton.mp member] at wide
      rw [decodeValue, wide, Option.map_none]
  | list items ih =>
      intro final passed wide
      unfold renderPyExpressions at passed
      cases passedItems : (renderPyItems eval items).result with
      | error problem =>
          simp only [PyRun.map, passedItems] at passed
          cases passed
      | ok rendered =>
          simp only [PyRun.map, passedItems] at passed
          cases passed
          rw [decodeValue, each items rendered passedItems ih wide, Option.map_none]
  | object fields ih =>
      intro final passed wide
      unfold renderPyExpressions at passed
      unfold numbersLeft at wide
      cases found : fields.lookup "$py" with
      | some own =>
          rw [found] at wide
          exact absurd wide.choose_spec.1 List.not_mem_nil
      | none =>
          rw [found] at passed wide
          cases passedFields : (renderPyFields eval fields).result with
          | error problem =>
              simp only [PyRun.map, passedFields] at passed
              cases passed
          | ok rendered =>
              simp only [PyRun.map, passedFields] at passed
              cases passed
              simp only [leftInFields_items] at wide
              have inner : decodeItems convert (rendered.map Prod.snd) = none := by
                apply each _ _ (renderPyFields_items passedFields) _ wide
                intro item inside
                obtain ⟨entry, entryMember, rfl⟩ := List.mem_map.mp inside
                exact ih entry entryMember
              rw [← decodeFields_items, Option.map_eq_none_iff] at inner
              rw [decodeValue, inner, Option.map_none]

theorem left_of_null (value : Value) :
    ∀ {final}, (renderPyExpressions (fun _ => .ok .null) value).result = .ok final →
      decodeValue convert final = none → ∃ literal ∈ numbersLeft value, convert literal = none := by
  have each : ∀ items rendered : List Value,
      (renderPyItems (fun _ => .ok .null) items).result = .ok rendered →
      (∀ item ∈ items, ∀ {final},
        (renderPyExpressions (fun _ => .ok .null) item).result = .ok final →
        decodeValue convert final = none → ∃ literal ∈ numbersLeft item, convert literal = none) →
      decodeItems convert rendered = none →
      ∃ literal ∈ leftInItems items, convert literal = none := by
    intro items rendered passed inner undecoded
    obtain ⟨after, member, wide⟩ := decodeItems_eq_none.mp undecoded
    obtain ⟨index, stands⟩ := List.mem_iff_getElem?.mp member
    obtain ⟨item, itemStands, passedItem⟩ :=
      exists_of_forall₂ (List.Forall₂.flip (renderPyItems_forall passed)) stands
    have among := List.mem_of_getElem? itemStands
    obtain ⟨literal, inside, out⟩ := inner item among passedItem wide
    exact ⟨literal, mem_leftInItems.mpr ⟨item, among, inside⟩, out⟩
  induction value using Value.induction with
  | null =>
      intro final passed undecoded
      cases passed
      cases undecoded
  | bool value =>
      intro final passed undecoded
      cases passed
      cases undecoded
  | text value =>
      intro final passed undecoded
      cases passed
      cases undecoded
  | number text =>
      intro final passed undecoded
      cases passed
      exact ⟨text, List.mem_singleton_self text, Option.map_eq_none_iff.mp undecoded⟩
  | list items ih =>
      intro final passed undecoded
      unfold renderPyExpressions at passed
      cases passedItems : (renderPyItems (fun _ => .ok .null) items).result with
      | error problem =>
          simp only [PyRun.map, passedItems] at passed
          cases passed
      | ok rendered =>
          simp only [PyRun.map, passedItems] at passed
          cases passed
          exact each items rendered passedItems ih (Option.map_eq_none_iff.mp undecoded)
  | object fields ih =>
      intro final passed undecoded
      unfold renderPyExpressions at passed
      unfold numbersLeft
      cases found : fields.lookup "$py" with
      | some own =>
          rw [found] at passed
          cases passed
          cases undecoded
      | none =>
          rw [found] at passed
          cases passedFields : (renderPyFields (fun _ => .ok .null) fields).result with
          | error problem =>
              simp only [PyRun.map, passedFields] at passed
              cases passed
          | ok rendered =>
              simp only [PyRun.map, passedFields] at passed
              cases passed
              simp only [leftInFields_items]
              apply each _ _ (renderPyFields_items passedFields)
              · intro item inside
                obtain ⟨entry, entryMember, rfl⟩ := List.mem_map.mp inside
                exact ih entry entryMember
              · rw [← decodeFields_items, Option.map_eq_none_iff.mp undecoded, Option.map_none]

end OutOfRange

private theorem dataStaysData_of_inert (passed : renderPayload env ctx tpl = .ok prepared)
    (inert : ∀ i ∈ payloadInsertions env ctx tpl,
      i.Inert ∧ Survives (resultNumber env prepared) i.value) : DataStaysData env ctx tpl := by
  intro eval
  obtain ⟨evaluated, results⟩ := @renderStepPayload_eq env ctx eval tpl prepared passed
  constructor
  · intro code member
    rw [evaluated] at member
    apply fieldsEvaluated_written (renderPayload_fields passed) (fun i among => (inert i among).1)
      _ member
    intro entry _member
    exact evaluated_written entry.2
  · intro final rendered i member
    obtain ⟨⟨free, absent⟩, survives⟩ := inert i member
    obtain ⟨whole, passedPy, arrived⟩ := results final rendered
    obtain ⟨value, rendersTo, found⟩ :=
      payloadInsertions_carried carried_rendered passed passedPy i member free
    rw [renderPyExpressions_eq_ok i.value absent] at rendersTo
    cases rendersTo
    obtain ⟨after, valuePassed, stands⟩ := decodeValue_valueAt arrived found
    rw [stands, Option.map_some, (meaning_decoded valuePassed).mpr survives]

private theorem dataStaysData_of_outOfRange (passed : renderPayload env ctx tpl = .ok prepared)
    (wide : ∃ literal ∈ numbersLeft (.object prepared), resultNumber env prepared literal = none)
    (written : ∀ code ∈ pyExpressions (.object prepared), code ∈ payloadExpressions tpl) :
    DataStaysData env ctx tpl := by
  intro eval
  obtain ⟨evaluated, results⟩ := @renderStepPayload_eq env ctx eval tpl prepared passed
  constructor
  · intro code member
    rw [evaluated] at member
    exact written code (evaluated_found _ code member)
  · intro final rendered
    obtain ⟨value, passedPy, arrived⟩ := results final rendered
    rw [decodeValue_of_left (.object prepared) passedPy wide] at arrived
    cases arrived

private theorem renderStepPayload_null {value final : Value}
    (passed : renderPayload env ctx tpl = .ok prepared)
    (passedPy : (renderPyExpressions (fun _ => .ok .null) (.object prepared)).result = .ok value)
    (arrived : decodeValue (resultNumber env prepared) value = some final) :
    (renderStepPayload (fun _ => .ok .null) env (some tpl) ctx).result = .ok final := by
  unfold resultNumber at arrived
  unfold renderStepPayload
  simp only [passed]
  by_cases absent : containsPy (.object prepared) = false
  · rw [if_pos absent] at arrived ⊢
    rw [renderPyExpressions_eq_ok _ absent] at passedPy
    cases passedPy
    rw [decodeValue_some] at arrived
    cases arrived
    rfl
  · rw [if_neg absent] at arrived ⊢
    simp only [passedPy]
    rcases renderPyExpressions_object _ passedPy with ⟨fields, rfl⟩ | ⟨code, answered⟩
    · obtain ⟨decoded, fieldsArrived, rfl⟩ := Option.map_eq_some_iff.mp arrived
      rw [decodePayload, fieldsArrived]
    · cases answered
      cases arrived
      rfl

theorem inert_of_dataStaysData {value final : Value}
    (passed : renderPayload env ctx tpl = .ok prepared) (stays : DataStaysData env ctx tpl)
    (passedPy : (renderPyExpressions (fun _ => .ok .null) (.object prepared)).result = .ok value)
    (arrived : decodeValue (resultNumber env prepared) value = some final) :
    ∀ i ∈ payloadInsertions env ctx tpl,
      i.Inert ∧ Survives (resultNumber env prepared) i.value := by
  intro i member
  have unchanged := (stays (fun _ => .ok .null)).2 final
    (renderStepPayload_null passed passedPy arrived) i member
  cases free : i.underPy with
  | true =>
      have lost := payloadInsertions_carried carried_lost passed passedPy i member free
      rw [decodeValue_valueAt_none arrived lost] at unchanged
      cases unchanged
  | false =>
      obtain ⟨own, rendersTo, found⟩ :=
        payloadInsertions_carried carried_rendered passed passedPy i member free
      obtain ⟨after, ownPassed, stands⟩ := decodeValue_valueAt arrived found
      rw [stands, Option.map_some] at unchanged
      have same := Option.some.inj unchanged
      have absent : containsPy i.value = false := by
        rw [Bool.eq_false_iff]
        intro present
        exact renderPyExpressions_null_changes i.value present own after rendersTo ownPassed same
      rw [renderPyExpressions_eq_ok i.value absent] at rendersTo
      cases rendersTo
      exact ⟨⟨free, absent⟩, (meaning_decoded ownPassed).mp same⟩

/-- For every template, row and responses, and whatever the sandbox answers:
data stays data exactly where the Go pass fails, so that nothing is evaluated,
or every value it inserts is inert and keeps its numbers when the answer of the
Python tier is decoded, or that answer can never be decoded and what is evaluated
is the template's. -/
theorem data_stays_data_iff (env : RenderEnv) (ctx : Context) (tpl : Data) :
    DataStaysData env ctx tpl ↔
      ∀ prepared, renderPayload env ctx tpl = .ok prepared →
        (∀ i ∈ payloadInsertions env ctx tpl, i.underPy = false ∧ containsPy i.value = false ∧
          Survives (resultNumber env prepared) i.value) ∨
        (∃ literal ∈ numbersLeft (.object prepared), resultNumber env prepared literal = none) ∧
          ∀ code ∈ pyExpressions (.object prepared), code ∈ payloadExpressions tpl := by
  constructor
  · intro stays prepared passed
    obtain ⟨value, passedPy⟩ := renderPyExpressions_null_succeeds (.object prepared)
    cases arrived : decodeValue (resultNumber env prepared) value with
    | some final =>
        left
        intro i member
        obtain ⟨⟨free, absent⟩, survives⟩ :=
          inert_of_dataStaysData passed stays passedPy arrived i member
        exact ⟨free, absent, survives⟩
    | none =>
        right
        refine ⟨left_of_null (.object prepared) passedPy arrived, ?_⟩
        intro code member
        apply (stays (fun _ => .ok .null)).1 code
        rw [(renderStepPayload_eq passed).1, null_evaluates]
        exact member
  · intro condition
    cases passed : renderPayload env ctx tpl with
    | ok prepared =>
        rcases condition prepared passed with inert | ⟨wide, written⟩
        · apply dataStaysData_of_inert passed
          intro i member
          obtain ⟨free, absent, survives⟩ := inert i member
          exact ⟨⟨free, absent⟩, survives⟩
        · exact dataStaysData_of_outOfRange passed wide written
    | error problem =>
        intro eval
        unfold renderStepPayload
        simp only [passed]
        constructor
        · intro code impossible
          cases impossible
        · intro final impossible
          cases impossible

end Passes

/-! ### A row that carries code -/

def memoTemplate : Data := [("memo", .object [("$from", .text "note")])]

def noteContext : Context :=
  { row := [("note", .object [("$py", .text "[x for x in row]")])], responses := [] }

def receiptTemplate : Data :=
  [("id", .object [("$fromResponse", .text "create"), ("path", .text "$.id")]),
    ("count", .object [("$py", .text "1 + 1")])]

def idEnv : RenderEnv :=
  { bareEnv with
    parseJSONPath := fun _ => .ok (fun doc =>
      match doc with
      | .object fields => (fields.lookup "id").toList
      | _ => []) }

def receiptContext : Context :=
  { row := [], responses := [("create", .object [("id", .number "9007199254740993")])] }

def answersTwo : Value → Except String Value := fun _ => .ok (.number "2")

private theorem receipt_rounded :
    (renderStepPayload answersTwo idEnv (some receiptTemplate) receiptContext).result =
      .ok (.object [("id", .number "9007199254740992"), ("count", .number "2")]) := by
  have id : convertNumber idEnv.fraction "9007199254740993" = some "9007199254740992" := by
    decide +kernel
  have count : convertNumber idEnv.fraction "2" = some "2" := by decide +kernel
  have rendered : renderPayload idEnv receiptContext receiptTemplate =
      .ok [("id", .number "9007199254740993"), ("count", .object [("$py", .text "1 + 1")])] := rfl
  have asked : containsPy (.object [("id", .number "9007199254740993"),
      ("count", .object [("$py", .text "1 + 1")])]) = true := rfl
  have answered : (renderPyExpressions answersTwo (.object [("id", .number "9007199254740993"),
      ("count", .object [("$py", .text "1 + 1")])])).result =
        .ok (.object [("id", .number "9007199254740993"), ("count", .number "2")]) := rfl
  simp only [renderStepPayload, rendered, asked, answered, Bool.true_eq_false, if_false,
    decodePayload, decodeFields, decodeValue, id, count, Option.map_some]

/-- An expression of the row is evaluated, and an id of the response is rounded. -/
theorem row_data_is_evaluated :
    (renderStepPayload (fun _ => .ok .null) bareEnv (some memoTemplate) noteContext).evaluated =
        [.text "[x for x in row]"] ∧
      payloadExpressions memoTemplate = [] ∧
        ¬DataStaysData bareEnv noteContext memoTemplate ∧
        ¬DataStaysData idEnv receiptContext receiptTemplate := by
  refine ⟨rfl, rfl, ?_, ?_⟩
  · intro stays
    have written := (stays (fun _ => .ok .null)).1 (.text "[x for x in row]") List.mem_cons_self
    cases written
  · intro stays
    have unchanged := (stays answersTwo).2 _ receipt_rounded _ List.mem_cons_self
    have same : NumberText.value? "9007199254740992".toList =
        NumberText.value? "9007199254740993".toList :=
      Meaning.number.inj (Option.some.inj unchanged)
    exact absurd same (by decide +kernel)

end MigrationPlatform.Template
