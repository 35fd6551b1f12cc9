/-
One language of documents in three descriptions: a schema that accepts them, types
that read and write them, and models that check them.

A description is a function put together from those of its parts. A type reads a
document and writes it back; an optional field that is null is left out of what it
writes, and so is a field that it does not know, where it lets one pass. `Agree`
says for which of the documents that a schema accepts the type gives the document
back, up to such nulls, and the model accepts it. The rules follow the parts.

Objects have distinct names, and their order is that of the document throughout.
-/

import Mathlib

namespace DocumentBindings

/-- A number without point and exponent is an integer; others are doubles. -/
inductive Number
  | integer (value : Int)
  | double (value : Rat)
deriving DecidableEq, Repr

def Number.whole? : Number → Option Int
  | .integer value => some value
  | .double value => if value.den = 1 then some value.num else none

inductive Json
  | null
  | bool (value : Bool)
  | number (number : Number)
  | text (value : String)
  | list (items : List Json)
  | object (entries : List (String × Json))

def Json.isNull : Json → Bool
  | .null => true
  | _ => false

mutual

def Json.stripNulls : Json → Json
  | .null => .null
  | .bool value => .bool value
  | .number number => .number number
  | .text value => .text value
  | .list items => .list (stripItems items)
  | .object entries => .object (stripEntries entries)

def stripItems : List Json → List Json
  | [] => []
  | item :: rest => item.stripNulls :: stripItems rest

def stripEntries : List (String × Json) → List (String × Json)
  | [] => []
  | (name, value) :: rest =>
      if value.isNull then stripEntries rest else (name, value.stripNulls) :: stripEntries rest

end

theorem isNull_iff (json : Json) : json.isNull = true ↔ json = .null := by
  cases json <;> simp [Json.isNull]

theorem stripNulls_eq_null {json : Json} : json.stripNulls = .null ↔ json = .null := by
  cases json <;> simp [Json.stripNulls]

def stripEntry (entry : String × Json) : Option (String × Json) :=
  if entry.2.isNull then none else some (entry.1, entry.2.stripNulls)

theorem stripItems_eq (items : List Json) : stripItems items = items.map Json.stripNulls := by
  induction items with
  | nil => rfl
  | cons item rest ih => rw [stripItems, ih, List.map_cons]

theorem stripEntries_eq (entries : List (String × Json)) :
    stripEntries entries = entries.filterMap stripEntry := by
  induction entries with
  | nil => rfl
  | cons entry rest ih =>
      obtain ⟨name, value⟩ := entry
      rw [stripEntries, ih]
      cases dropped : value.isNull with
      | true => rw [if_pos rfl, List.filterMap_cons_none (by simp [stripEntry, dropped])]
      | false =>
          rw [if_neg Bool.false_ne_true,
            List.filterMap_cons_some (b := (name, value.stripNulls)) (by simp [stripEntry, dropped])]

abbrev Check := Json → Bool

def anything : Check := fun _ => true

def isText (fits : String → Bool) : Check
  | .text value => fits value
  | _ => false

def oneOf (names : List String) : Check := isText names.contains

def wholeNumber (fits : Int → Bool) : Check
  | .number number => number.whole?.any fits
  | _ => false

def anyObject : Check
  | .object _ => true
  | _ => false

def mapOf (value : Check) : Check
  | .object entries => entries.all (fun entry => value entry.2)
  | _ => false

def listOf (item : Check) (size : Nat → Bool) : Check
  | .list items => items.all item && size items.length
  | _ => false

def anyOf (checks : List Check) : Check := fun json => checks.any (fun check => check json)

structure Field (Content : Type) where
  name : String
  required : Bool
  content : Content

variable {Content : Type}

def field? (fields : List (Field Content)) (name : String) : Option (Field Content) :=
  fields.find? (fun field => field.name = name)

def complete (fields : List (Field Content)) (entries : List (String × Json)) : Bool :=
  fields.all (fun field => !field.required || entries.any (fun entry => entry.1 = field.name))

def recordEntry (closed : Bool) (fields : List (Field Check)) (entry : String × Json) : Bool :=
  match field? fields entry.1 with
  | some field => field.content entry.2
  | none => !closed

def record (closed : Bool) (fields : List (Field Check)) : Check
  | .object entries => complete fields entries && entries.all (recordEntry closed fields)
  | _ => false

/-- A number that a model takes for an integer: a double has to fit 64 bits. -/
def modelInteger (fits : Int → Bool) : Check
  | .number (.integer value) => fits value
  | .number (.double value) =>
      value.den == 1 && decide (-2 ^ 63 < value.num ∧ value.num < 2 ^ 63) && fits value.num
  | _ => false

def modelEntry (forbid : Bool) (fields : List (Field Check)) (entry : String × Json) : Bool :=
  match field? fields entry.1 with
  | some field => (!field.required && entry.2.isNull) || field.content entry.2
  | none => !forbid

def model (forbid : Bool) (fields : List (Field Check)) : Check
  | .object entries => complete fields entries && entries.all (modelEntry forbid fields)
  | _ => false

/-- What a type writes for a document that it reads. -/
structure Codec where
  run : Json → Option Json
  ofNull : ∀ written, run .null = some written → written = .null

def Codec.value : Codec where
  run := some
  ofNull := fun _ same => (Option.some.inj same).symm

def Codec.text : Codec where
  run := fun json =>
    match json with
    | .text value => some (.text value)
    | _ => none
  ofNull := fun _ impossible => nomatch impossible

def Codec.names (names : List String) : Codec where
  run := fun json =>
    match json with
    | .text value => if names.contains value then some (.text value) else none
    | _ => none
  ofNull := fun _ impossible => nomatch impossible

def Codec.integer (low high : Int) : Codec where
  run := fun json =>
    match json with
    | .number (.integer value) =>
        if low ≤ value ∧ value ≤ high then some (.number (.integer value)) else none
    | _ => none
  ofNull := fun _ impossible => nomatch impossible

def Codec.map : Codec where
  run := fun json =>
    match json with
    | .object entries => some (.object entries)
    | _ => none
  ofNull := fun _ impossible => nomatch impossible

def writeAll {Part Written : Type} (write : Part → Option (List Written)) :
    List Part → Option (List Written)
  | [] => some []
  | part :: rest =>
      match write part, writeAll write rest with
      | some first, some others => some (first ++ others)
      | _, _ => none

def Codec.writeItem (item : Codec) (part : Json) : Option (List Json) :=
  (item.run part).map (fun written => [written])

def Codec.list (item : Codec) : Codec where
  run := fun json =>
    match json with
    | .list items => (writeAll item.writeItem items).map .list
    | _ => none
  ofNull := fun _ impossible => nomatch impossible

def writeEntry (deny : Bool) (fields : List (Field Codec)) (entry : String × Json) :
    Option (List (String × Json)) :=
  match field? fields entry.1 with
  | none => if deny then none else some []
  | some field =>
      if !field.required && entry.2.isNull then some []
      else (field.content.run entry.2).map (fun written => [(entry.1, written)])

def Codec.struct (deny : Bool) (fields : List (Field Codec)) : Codec where
  run := fun json =>
    match json with
    | .object entries =>
        if complete fields entries then (writeAll (writeEntry deny fields) entries).map .object
        else none
    | _ => none
  ofNull := fun _ impossible => nomatch impossible

/-- The type reads the document and writes it back, up to nulls that it omits. -/
def Codec.Carries (codec : Codec) (json : Json) : Prop :=
  ∃ written, codec.run json = some written ∧ json.stripNulls = written.stripNulls

theorem Codec.carries_null (codec : Codec) :
    codec.Carries .null ↔ codec.run .null = some .null := by
  constructor
  · rintro ⟨written, reads, -⟩
    rw [reads, codec.ofNull written reads]
  · intro reads
    exact ⟨.null, reads, rfl⟩

/-! ### What is written for the parts

What a part leaves behind is compared by `kept` with what it was; a part that leaves
more than it was has to be excluded, since another one could make up for it. -/

section Parts

variable {Part Written Kept : Type} (write : Part → Option (List Written))
  (before : Part → Option Kept) (after : Written → Option Kept)

theorem writeAll_bounded {parts : List Part} {written : List Written}
    (bounded : ∀ part own, write part = some own →
      (own.filterMap after).length ≤ (before part).toList.length)
    (writes : writeAll write parts = some written) :
    (written.filterMap after).length ≤ (parts.filterMap before).length := by
  induction parts generalizing written with
  | nil =>
      cases writes
      exact Nat.le_refl 0
  | cons part rest ih =>
      unfold writeAll at writes
      split at writes
      next own others ofPart ofRest =>
          cases writes
          have here := bounded part own ofPart
          have later := ih ofRest
          rw [List.filterMap_append, List.length_append]
          cases was : before part with
          | none =>
              rw [was] at here
              rw [List.filterMap_cons_none was]
              simp only [Option.toList_none, List.length_nil] at here
              omega
          | some kept =>
              rw [was] at here
              rw [List.filterMap_cons_some was, List.length_cons]
              simp only [Option.toList_some, List.length_singleton] at here
              omega
      next => cases writes

theorem filterMap_cons_toList (part : Part) (rest : List Part) :
    (part :: rest).filterMap before = (before part).toList ++ rest.filterMap before := by
  cases was : before part with
  | none => rw [List.filterMap_cons_none was, Option.toList_none, List.nil_append]
  | some kept => rw [List.filterMap_cons_some was, Option.toList_some, List.singleton_append]

theorem writeAll_carries (parts : List Part)
    (bounded : ∀ part own, write part = some own →
      (own.filterMap after).length ≤ (before part).toList.length) :
    (∃ written, writeAll write parts = some written ∧
        parts.filterMap before = written.filterMap after) ↔
      ∀ part ∈ parts, ∃ own, write part = some own ∧
        (before part).toList = own.filterMap after := by
  induction parts with
  | nil =>
      constructor
      · rintro - part ⟨⟩
      · intro _
        exact ⟨[], rfl, rfl⟩
  | cons part rest ih =>
      rw [List.forall_mem_cons, ← ih]
      constructor
      · rintro ⟨written, writes, same⟩
        unfold writeAll at writes
        split at writes
        next own others ofPart ofRest =>
            cases writes
            rw [filterMap_cons_toList, List.filterMap_append] at same
            -- neither half can be longer than what it was, so both are as long
            have here := bounded part own ofPart
            have later := writeAll_bounded write before after bounded ofRest
            have lengths := congrArg List.length same
            rw [List.length_append, List.length_append] at lengths
            obtain ⟨first, others⟩ := List.append_inj same (by omega)
            exact ⟨⟨own, ofPart, first⟩, _, ofRest, others⟩
        next => cases writes
      · rintro ⟨⟨own, ofPart, first⟩, others, ofRest, same⟩
        refine ⟨own ++ others, ?_, ?_⟩
        · unfold writeAll
          rw [ofPart, ofRest]
        · rw [filterMap_cons_toList, List.filterMap_append, first, same]

end Parts

abbrev Clean := Json → Prop

def always : Clean := fun _ => True

def never : Clean := fun _ => False

/-- The documents of the schema that both other descriptions do justice to are the
clean ones. -/
def Agree (schema : Check) (codec : Codec) (check : Check) (clean : Clean) : Prop :=
  ∀ json, schema json = true → ((codec.Carries json ∧ check json = true) ↔ clean json)

theorem Agree.congr {schema check : Check} {codec : Codec} {clean other : Clean}
    (agree : Agree schema codec check clean)
    (same : ∀ json, schema json = true → (clean json ↔ other json)) :
    Agree schema codec check other :=
  fun json accepted => (agree json accepted).trans (same json accepted)

theorem agree_value : Agree anything .value anything always :=
  fun json _ => ⟨fun _ => trivial, fun _ => ⟨⟨json, rfl, rfl⟩, rfl⟩⟩

theorem agree_text (fits checks : String → Bool)
    (enough : ∀ value, fits value = true → checks value = true) :
    Agree (isText fits) .text (isText checks) always := by
  intro json accepted
  cases json with
  | text value => exact ⟨fun _ => trivial, fun _ => ⟨⟨_, rfl, rfl⟩, enough value accepted⟩⟩
  | _ => cases accepted

def named (typed checked : List String) : Clean
  | .text value => value ∈ typed ∧ value ∈ checked
  | _ => True

theorem agree_names (accepted typed checked : List String) :
    Agree (oneOf accepted) (.names typed) (oneOf checked) (named typed checked) := by
  intro json ofSchema
  cases json with
  | text value =>
      constructor
      · rintro ⟨⟨written, reads, -⟩, checks⟩
        simp only [Codec.names, List.contains_iff_mem, Option.ite_none_right_eq_some] at reads
        exact ⟨reads.1, List.contains_iff_mem.mp checks⟩
      · rintro ⟨inTyped, inChecked⟩
        refine ⟨⟨.text value, ?_, rfl⟩, List.contains_iff_mem.mpr inChecked⟩
        exact if_pos (List.contains_iff_mem.mpr inTyped)
  | _ => cases ofSchema

theorem agree_sameNames (accepted typed checked : List String)
    (ofTyped : ∀ name ∈ accepted, name ∈ typed) (ofChecked : ∀ name ∈ accepted, name ∈ checked) :
    Agree (oneOf accepted) (.names typed) (oneOf checked) always := by
  refine (agree_names accepted typed checked).congr fun json ofSchema => ?_
  cases json with
  | text value =>
      have known := List.contains_iff_mem.mp ofSchema
      exact ⟨fun _ => trivial, fun _ => ⟨ofTyped value known, ofChecked value known⟩⟩
  | _ => cases ofSchema

def literalWithin (low high : Int) : Clean
  | .number (.integer value) => low ≤ value ∧ value ≤ high
  | .number (.double _) => False
  | _ => True

theorem agree_integer (low high : Int) (fits checks : Int → Bool)
    (enough : ∀ value, fits value = true → checks value = true) :
    Agree (wholeNumber fits) (.integer low high) (modelInteger checks) (literalWithin low high) := by
  intro json accepted
  cases json with
  | number number =>
      cases number with
      | integer value =>
          constructor
          · rintro ⟨⟨written, reads, -⟩, -⟩
            simp only [Codec.integer, Option.ite_none_right_eq_some] at reads
            exact reads.1
          · intro inRange
            exact ⟨⟨_, if_pos inRange, rfl⟩, enough value accepted⟩
      | double value =>
          constructor
          · rintro ⟨⟨written, impossible, -⟩, -⟩
            cases impossible
          · rintro ⟨⟩
  | _ => cases accepted

theorem agree_map (schema : Check) (object : ∀ json, schema json = true → anyObject json = true) :
    Agree schema .map anyObject always := by
  intro json accepted
  have isObject := object json accepted
  cases json with
  | object entries => exact ⟨fun _ => trivial, fun _ => ⟨⟨_, rfl, rfl⟩, rfl⟩⟩
  | _ => cases isObject

def each (clean : Clean) : Clean
  | .list items => ∀ item ∈ items, clean item
  | _ => True

theorem carries_list (item : Codec) (items : List Json) :
    (Codec.list item).Carries (.list items) ↔ ∀ part ∈ items, item.Carries part := by
  have whole := writeAll_carries item.writeItem (fun part => some part.stripNulls)
    (fun written => some written.stripNulls) items (by
      intro part own writes
      obtain ⟨written, -, rfl⟩ := Option.map_eq_some_iff.mp writes
      exact Nat.le_refl 1)
  have parts (part : Json) :
      (∃ own, item.writeItem part = some own ∧
        [part.stripNulls] = own.map Json.stripNulls) ↔
      item.Carries part := by
    constructor
    · rintro ⟨own, writes, same⟩
      obtain ⟨written, reads, rfl⟩ := Option.map_eq_some_iff.mp writes
      exact ⟨written, reads, List.head_eq_of_cons_eq same⟩
    · rintro ⟨written, reads, same⟩
      refine ⟨[written], Option.map_eq_some_iff.mpr ⟨written, reads, rfl⟩, ?_⟩
      rw [same, List.map_singleton]
  simp only [Option.toList_some, List.filterMap_eq_map', parts] at whole
  rw [← whole]
  constructor
  · rintro ⟨written, reads, same⟩
    obtain ⟨out, writes, rfl⟩ := Option.map_eq_some_iff.mp reads
    refine ⟨out, writes, ?_⟩
    simpa only [Json.stripNulls, stripItems_eq, Json.list.injEq] using same
  · rintro ⟨out, writes, same⟩
    refine ⟨.list out, Option.map_eq_some_iff.mpr ⟨out, writes, rfl⟩, ?_⟩
    simpa only [Json.stripNulls, stripItems_eq, Json.list.injEq] using same

theorem agree_list {schema check : Check} {codec : Codec} {clean : Clean} (fits checks : Nat → Bool)
    (enough : ∀ size, fits size = true → checks size = true)
    (agree : Agree schema codec check clean) :
    Agree (listOf schema fits) (.list codec) (listOf check checks) (each clean) := by
  intro json accepted
  cases json with
  | list items =>
      rw [listOf, Bool.and_eq_true, List.all_eq_true] at accepted
      obtain ⟨ofSchema, sized⟩ := accepted
      rw [carries_list, listOf, Bool.and_eq_true, List.all_eq_true]
      constructor
      · rintro ⟨carried, checked, -⟩ item member
        exact (agree item (ofSchema item member)).mp ⟨carried item member, checked item member⟩
      · intro clean
        have both (item : Json) (member : item ∈ items) :=
          (agree item (ofSchema item member)).mpr (clean item member)
        exact ⟨fun item member => (both item member).1,
          fun item member => (both item member).2, enough _ sized⟩
  | _ => cases accepted

theorem agree_freeList {schema check : Check} {codec : Codec} (fits checks : Nat → Bool)
    (enough : ∀ size, fits size = true → checks size = true)
    (agree : Agree schema codec check always) :
    Agree (listOf schema fits) (.list codec) (listOf check checks) always :=
  (agree_list fits checks enough agree).congr fun json accepted => by
    cases json with
    | list items => exact ⟨fun _ => trivial, fun _ _ _ => trivial⟩
    | _ => cases accepted

/-! ### Records -/

/-- A field in the three descriptions. A model need not know it. -/
structure Row where
  name : String
  required : Bool
  schema : Check
  codec : Codec
  model : Option Check
  clean : Option Clean
  agrees : Agree schema codec (model.getD (fun _ => false)) (clean.getD always)
  nulls : required = false → model ≠ none → schema .null = true → clean.getD always .null

section Kinds

variable (name : String) (required : Bool) {schema check : Check} {codec : Codec} {clean : Clean}

def Row.free (agree : Agree schema codec check always) : Row where
  name := name
  required := required
  schema := schema
  codec := codec
  model := some check
  clean := none
  agrees := agree
  nulls := fun _ _ _ => trivial

def Row.when (agree : Agree schema codec check clean) (never : schema .null = false) : Row where
  name := name
  required := required
  schema := schema
  codec := codec
  model := some check
  clean := some clean
  agrees := agree
  nulls := fun _ _ null => absurd null (by rw [never]; exact Bool.false_ne_true)

def Row.unmodelled (schema : Check) (codec : Codec) : Row where
  name := name
  required := required
  schema := schema
  codec := codec
  model := none
  clean := some never
  agrees := fun _ _ => ⟨fun both => Bool.false_ne_true both.2, fun impossible => impossible.elim⟩
  nulls := fun _ unknown _ => absurd rfl unknown

end Kinds

def Row.schemaField (row : Row) : Field Check := ⟨row.name, row.required, row.schema⟩

def Row.codecField (row : Row) : Field Codec := ⟨row.name, row.required, row.codec⟩

def Row.modelField (row : Row) : Option (Field Check) :=
  row.model.map (fun check => ⟨row.name, row.required, check⟩)

def Row.condition (row : Row) : Option (String × Clean) :=
  row.clean.map (fun clean => (row.name, clean))

def within (conditions : List (String × Clean)) : Clean
  | .object entries =>
      ∀ entry ∈ entries, ∀ condition, (entry.1, condition) ∈ conditions → condition entry.2
  | _ => True

def nothingElse (names : List String) : Clean
  | .object entries => ∀ entry ∈ entries, entry.1 ∉ names → entry.2 = .null
  | _ => True

def Carried (deny : Bool) (fields : List (Field Codec)) (entry : String × Json) : Prop :=
  ∃ own, writeEntry deny fields entry = some own ∧
    (stripEntry entry).toList = own.filterMap stripEntry

variable {name : String}

theorem stripEntry_some {json : Json} (present : json.isNull = false) :
    stripEntry (name, json) = some (name, json.stripNulls) := by
  rw [stripEntry, if_neg (by rw [present]; exact Bool.false_ne_true)]

theorem stripEntry_null (name : String) : stripEntry (name, .null) = none := rfl

theorem writeEntry_bounded (deny : Bool) (fields : List (Field Codec)) (entry : String × Json)
    (own : List (String × Json)) (writes : writeEntry deny fields entry = some own) :
    (own.filterMap stripEntry).length ≤ (stripEntry entry).toList.length := by
  unfold writeEntry at writes
  split at writes
  next =>
      split at writes
      · cases writes
      · cases writes
        exact Nat.zero_le _
  next field _ =>
      split at writes
      · cases writes
        exact Nat.zero_le _
      · obtain ⟨written, reads, rfl⟩ := Option.map_eq_some_iff.mp writes
        obtain ⟨name, json⟩ := entry
        cases isNull : json.isNull with
        | true =>
            cases (isNull_iff json).mp isNull
            cases field.content.ofNull written reads
            exact Nat.le_refl 0
        | false =>
            rw [stripEntry_some isNull]
            exact List.length_filterMap_le _ _

theorem carries_struct (deny : Bool) (fields : List (Field Codec))
    (entries : List (String × Json)) :
    (Codec.struct deny fields).Carries (.object entries) ↔
      complete fields entries = true ∧ ∀ entry ∈ entries, Carried deny fields entry := by
  have whole := writeAll_carries (writeEntry deny fields) stripEntry stripEntry entries
    (writeEntry_bounded deny fields)
  unfold Carried
  rw [← whole]
  constructor
  · rintro ⟨written, reads, same⟩
    simp only [Codec.struct, Option.ite_none_right_eq_some] at reads
    obtain ⟨all, reads⟩ := reads
    obtain ⟨out, writes, rfl⟩ := Option.map_eq_some_iff.mp reads
    refine ⟨all, out, writes, ?_⟩
    simpa only [Json.stripNulls, stripEntries_eq, Json.object.injEq] using same
  · rintro ⟨all, out, writes, same⟩
    refine ⟨.object out, ?_, ?_⟩
    · simp only [Codec.struct, all, if_true]
      exact Option.map_eq_some_iff.mpr ⟨out, writes, rfl⟩
    · simpa only [Json.stripNulls, stripEntries_eq, Json.object.injEq] using same

theorem carried_field {deny : Bool} {fields : List (Field Codec)} {field : Field Codec}
    (json : Json) (known : field? fields name = some field) :
    Carried deny fields (name, json) ↔
      (field.required = false ∧ json = .null) ∨ field.content.Carries json := by
  unfold Carried writeEntry
  rw [known]
  simp only
  cases isNull : json.isNull with
  | true =>
      cases (isNull_iff json).mp isNull
      cases optional : field.required with
      | false => simp [stripEntry_null]
      | true =>
          rw [Codec.carries_null]
          constructor
          · rintro ⟨own, writes, -⟩
            obtain ⟨written, reads, -⟩ := Option.map_eq_some_iff.mp writes
            rw [reads, field.content.ofNull written reads]
            exact Or.inr rfl
          · rintro (⟨impossible, -⟩ | reads)
            · cases impossible
            · exact ⟨[(name, .null)], Option.map_eq_some_iff.mpr ⟨.null, reads, rfl⟩, rfl⟩
  | false =>
      have present : json ≠ .null := fun same => by rw [same] at isNull; cases isNull
      rw [Bool.and_false, if_neg Bool.false_ne_true, stripEntry_some isNull, Option.toList_some]
      constructor
      · rintro ⟨own, writes, same⟩
        obtain ⟨written, reads, rfl⟩ := Option.map_eq_some_iff.mp writes
        refine Or.inr ⟨written, reads, ?_⟩
        cases lost : written.isNull with
        | true => rw [(isNull_iff written).mp lost] at same; cases same
        | false =>
            rw [List.filterMap_cons_some (stripEntry_some lost)] at same
            exact (Prod.mk.inj (List.head_eq_of_cons_eq same)).2
      · rintro (⟨-, impossible⟩ | ⟨written, reads, same⟩)
        · exact absurd impossible present
        · refine ⟨[(name, written)], Option.map_eq_some_iff.mpr ⟨written, reads, rfl⟩, ?_⟩
          have kept : written.isNull = false := by
            rw [Bool.eq_false_iff]
            intro lost
            rw [(isNull_iff written).mp lost] at same
            exact present (stripNulls_eq_null.mp same)
          rw [List.filterMap_cons_some (stripEntry_some kept), same]
          rfl

theorem carried_unknown {fields : List (Field Codec)} {json : Json}
    (unknown : field? fields name = none) :
    Carried false fields (name, json) ↔ json = .null := by
  unfold Carried writeEntry
  rw [unknown, ← isNull_iff]
  simp only [Bool.false_eq_true, if_false]
  cases isNull : json.isNull with
  | true =>
      cases (isNull_iff json).mp isNull
      exact ⟨fun _ => rfl, fun _ => ⟨[], rfl, rfl⟩⟩
  | false =>
      rw [stripEntry_some isNull]
      constructor
      · rintro ⟨own, writes, same⟩
        cases writes
        cases same
      · rintro ⟨⟩

section Rows

variable (rows : List Row)

def row? (name : String) : Option Row := rows.find? (fun row => row.name = name)

theorem schemaField_of (name : String) :
    field? (rows.map Row.schemaField) name = (row? rows name).map Row.schemaField :=
  List.find?_map ..

theorem codecField_of (name : String) :
    field? (rows.map Row.codecField) name = (row? rows name).map Row.codecField :=
  List.find?_map ..

theorem row?_some {row : Row} (found : row? rows name = some row) :
    row ∈ rows ∧ row.name = name :=
  ⟨List.mem_of_find?_eq_some found, by simpa using List.find?_some found⟩

theorem row?_none : row? rows name = none ↔ name ∉ rows.map Row.name := by
  simp [row?]

variable {rows}

theorem row_unique (distinct : (rows.map Row.name).Nodup) {row : Row} (member : row ∈ rows) :
    row? rows row.name = some row := by
  induction rows with
  | nil => cases member
  | cons head rest ih =>
      rw [List.map_cons, List.nodup_cons] at distinct
      cases member with
      | head => exact List.find?_cons_of_pos (decide_eq_true rfl)
      | tail _ later =>
          have other : head.name ≠ row.name := fun same =>
            distinct.1 (same ▸ List.mem_map_of_mem later)
          rw [row?, List.find?_cons_of_neg (by simpa using other)]
          exact ih distinct.2 later

theorem modelField_of (distinct : (rows.map Row.name).Nodup) (name : String) :
    field? (rows.filterMap Row.modelField) name = (row? rows name).bind Row.modelField := by
  induction rows with
  | nil => rfl
  | cons head rest ih =>
      rw [List.map_cons, List.nodup_cons] at distinct
      have later := ih distinct.2
      by_cases here : head.name = name
      · have found : row? (head :: rest) name = some head :=
          List.find?_cons_of_pos (decide_eq_true here)
        rw [found, Option.bind_some]
        cases known : head.modelField with
        | none =>
            rw [List.filterMap_cons_none known, later,
              (row?_none rest).mpr (here ▸ distinct.1), Option.bind_none]
        | some field =>
            rw [List.filterMap_cons_some known]
            obtain ⟨check, -, rfl⟩ := Option.map_eq_some_iff.mp known
            exact List.find?_cons_of_pos (decide_eq_true here)
      · have skipped : row? (head :: rest) name = row? rest name :=
          List.find?_cons_of_neg (by simpa using here)
        rw [skipped, ← later]
        cases known : head.modelField with
        | none => rw [List.filterMap_cons_none known]
        | some field =>
            rw [List.filterMap_cons_some known]
            obtain ⟨check, -, rfl⟩ := Option.map_eq_some_iff.mp known
            exact List.find?_cons_of_neg (by simpa using here)

theorem name_of_condition {condition : Clean}
    (member : (name, condition) ∈ rows.filterMap Row.condition) : name ∈ rows.map Row.name := by
  obtain ⟨row, present, constrained⟩ := List.mem_filterMap.mp member
  obtain ⟨clean, -, same⟩ := Option.map_eq_some_iff.mp constrained
  exact List.mem_map.mpr ⟨row, present, (Prod.mk.inj same).1⟩

theorem within_row (distinct : (rows.map Row.name).Nodup) {row : Row}
    (found : row? rows name = some row) (json : Json) :
    (∀ condition, (name, condition) ∈ rows.filterMap Row.condition → condition json) ↔
      row.clean.getD always json := by
  obtain ⟨member, rfl⟩ := row?_some rows found
  have conditions (condition : Clean) :
      (row.name, condition) ∈ rows.filterMap Row.condition ↔ row.clean = some condition := by
    rw [List.mem_filterMap]
    constructor
    · rintro ⟨other, present, constrained⟩
      obtain ⟨clean, known, same⟩ := Option.map_eq_some_iff.mp constrained
      obtain ⟨sameName, rfl⟩ := Prod.mk.inj same
      have unique := row_unique distinct present
      rw [sameName, found] at unique
      rw [Option.some.inj unique, known]
    · intro known
      exact ⟨row, member, Option.map_eq_some_iff.mpr ⟨condition, known, rfl⟩⟩
  simp only [conditions]
  cases row.clean with
  | none => exact ⟨fun _ => trivial, fun _ _ impossible => nomatch impossible⟩
  | some clean =>
      constructor
      · intro all
        exact all clean rfl
      · intro fine condition same
        exact Option.some.inj same ▸ fine

theorem Row.entry (row : Row) (forbid : Bool) (forbids : row.model = none → forbid = true)
    (distinct : (rows.map Row.name).Nodup) {deny : Bool}
    (found : row? rows name = some row) (json : Json) (accepted : row.schema json = true) :
    (Carried deny (rows.map Row.codecField) (name, json) ∧
        modelEntry forbid (rows.filterMap Row.modelField) (name, json) = true) ↔
      row.clean.getD always json := by
  have known : field? (rows.map Row.codecField) name = some row.codecField := by
    rw [codecField_of, found, Option.map_some]
  rw [carried_field json known, modelEntry, modelField_of distinct, found, Option.bind_some]
  have law := row.agrees json accepted
  cases checks : row.model with
  | none =>
      rw [checks] at law
      simp only [Row.modelField, checks, Option.map_none, forbids checks, Bool.not_true,
        Bool.false_eq_true, and_false, false_iff]
      intro clean
      cases (law.mpr clean).2
  | some check =>
      rw [checks, Option.getD_some] at law
      simp only [Row.modelField, checks, Option.map_some, Row.codecField]
      by_cases omitted : row.required = false ∧ json = .null
      · obtain ⟨optional, rfl⟩ := omitted
        have fine := row.nulls optional (by rw [checks]; exact Option.some_ne_none check) accepted
        simp [optional, Json.isNull, fine]
      · have present : (!row.required && json.isNull) = false := by
          rw [Bool.eq_false_iff]
          intro both
          rw [Bool.and_eq_true, Bool.not_eq_true', isNull_iff] at both
          exact omitted both
        rw [present, Bool.false_or, ← law]
        simp only [omitted, false_or]

theorem complete_model (entries : List (String × Json))
    (all : complete (rows.map Row.schemaField) entries = true) :
    complete (rows.filterMap Row.modelField) entries = true := by
  rw [complete, List.all_eq_true] at all ⊢
  intro field member
  obtain ⟨row, present, known⟩ := List.mem_filterMap.mp member
  obtain ⟨check, -, rfl⟩ := Option.map_eq_some_iff.mp known
  exact all row.schemaField (List.mem_map_of_mem present)

theorem complete_codec (entries : List (String × Json)) :
    complete (rows.map Row.codecField) entries = complete (rows.map Row.schemaField) entries := by
  rw [complete, complete, List.all_map, List.all_map]
  rfl

theorem agree_entries {closed deny forbid : Bool} {clean : String × Json → Prop}
    (law : ∀ entry, recordEntry closed (rows.map Row.schemaField) entry = true →
      ((Carried deny (rows.map Row.codecField) entry ∧
        modelEntry forbid (rows.filterMap Row.modelField) entry = true) ↔ clean entry))
    (entries : List (String × Json))
    (accepted : record closed (rows.map Row.schemaField) (.object entries) = true) :
    ((Codec.struct deny (rows.map Row.codecField)).Carries (.object entries) ∧
        model forbid (rows.filterMap Row.modelField) (.object entries) = true) ↔
      ∀ entry ∈ entries, clean entry := by
  rw [record, Bool.and_eq_true, List.all_eq_true] at accepted
  obtain ⟨all, known⟩ := accepted
  rw [carries_struct, complete_codec, model, Bool.and_eq_true, List.all_eq_true]
  constructor
  · rintro ⟨⟨-, carried⟩, -, checked⟩ entry member
    exact (law entry (known entry member)).mp ⟨carried entry member, checked entry member⟩
  · intro fine
    have both (entry : String × Json) (member : entry ∈ entries) :=
      (law entry (known entry member)).mpr (fine entry member)
    exact ⟨⟨all, fun entry member => (both entry member).1⟩, complete_model entries all,
      fun entry member => (both entry member).2⟩

theorem agree_record (rows : List Row) (deny : Bool) (distinct : (rows.map Row.name).Nodup) :
    Agree (record true (rows.map Row.schemaField)) (.struct deny (rows.map Row.codecField))
      (model true (rows.filterMap Row.modelField)) (within (rows.filterMap Row.condition)) := by
  intro json accepted
  cases json with
  | object entries =>
      refine agree_entries ?_ entries accepted
      rintro ⟨name, json⟩ ofSchema
      rw [recordEntry, schemaField_of] at ofSchema
      cases found : row? rows name with
      | none => rw [found] at ofSchema; cases ofSchema
      | some row =>
          rw [found] at ofSchema
          rw [within_row distinct found]
          exact row.entry true (fun _ => rfl) distinct found json ofSchema
  | _ => cases accepted

theorem within_nil (json : Json) : within [] json := by
  cases json with
  | object entries => exact fun _ _ _ member => absurd member List.not_mem_nil
  | _ => trivial

theorem agree_freeRecord {schema check : Check} {codec : Codec}
    (agree : Agree schema codec check (within [])) : Agree schema codec check always :=
  agree.congr fun json _ => ⟨fun _ => trivial, fun _ => within_nil json⟩

theorem agree_openRecord (rows : List Row) (distinct : (rows.map Row.name).Nodup)
    (modelled : ∀ row ∈ rows, row.model ≠ none) :
    Agree (record false (rows.map Row.schemaField)) (.struct false (rows.map Row.codecField))
      (model false (rows.filterMap Row.modelField))
      (fun json => within (rows.filterMap Row.condition) json ∧
        nothingElse (rows.map Row.name) json) := by
  intro json accepted
  cases json with
  | object entries =>
      refine (@agree_entries rows false false false
        (fun entry =>
          (∀ condition, (entry.1, condition) ∈ rows.filterMap Row.condition → condition entry.2) ∧
            (entry.1 ∉ rows.map Row.name → entry.2 = .null)) ?_ entries accepted).trans
        forall₂_and
      rintro ⟨name, json⟩ ofSchema
      rw [recordEntry, schemaField_of] at ofSchema
      cases found : row? rows name with
      | none =>
          have unknown := (row?_none rows).mp found
          rw [modelEntry, modelField_of distinct, found, carried_unknown (by
            rw [codecField_of, found, Option.map_none])]
          constructor
          · rintro ⟨isNull, -⟩
            exact ⟨fun condition member => absurd (name_of_condition member) unknown,
              fun _ => isNull⟩
          · rintro ⟨-, isNull⟩
            exact ⟨isNull unknown, rfl⟩
      | some row =>
          rw [found] at ofSchema
          have known : name ∈ rows.map Row.name :=
            (row?_some rows found).2 ▸ List.mem_map_of_mem (row?_some rows found).1
          rw [within_row distinct found, row.entry false
            (fun missing => absurd missing (modelled row (row?_some rows found).1)) distinct found
            json ofSchema]
          exact ⟨fun fine => ⟨fine, fun impossible => absurd known impossible⟩, And.left⟩
  | _ => cases accepted

end Rows

end DocumentBindings
