/-
What the XML connector keeps of a record element.

Children of one name are collected in a list, but an attribute replaces an
earlier one of its local name and a text an earlier text. `record_kept_iff` says
that nothing else is lost: a record is kept whole exactly when its elements have
at most one text each and no two values for one local attribute name.
-/

import MigrationPlatform.Sampling.XmlMirror

namespace MigrationPlatform.Sampling

open MigrationPlatform.Connectors

def attributeValue (attr : Attribute) : String :=
  String.ofList (writtenChars (rewriteLines false attr.value))

def nonBlank (text : String) : List String := if trim text ≠ "" then [text] else []

def texts : Content → List String
  | .done => []
  | .element _ _ _ rest => texts rest
  | .empty _ _ rest => texts rest
  | .text raw rest => nonBlank (String.ofList (writtenChars (rewriteLines false raw))) ++ texts rest
  | .cdata text rest => nonBlank text ++ texts rest
  | .misc _ rest => texts rest

def fieldsOf : Value → Data
  | .object fields => fields
  | .text text => [("$text", .text text)]
  | _ => []

def entriesOf (fields : Data) (name : String) : List Value :=
  match fields.lookup name with
  | none => []
  | some (.list items) => items
  | some value => [value]

def storedText (fields : Data) : List Char :=
  match fields.lookup "$text" with
  | some (.text text) => text.toList
  | _ => []

def ChildName (name : String) : Prop := name.toList.head? ≠ some '@' ∧ name ≠ "$text"

def AttributesKept (attrs : List Attribute) (fields : Data) : Prop :=
  ∀ attr ∈ attrs, fields.lookup ("@" ++ goLocalName attr.name) = some (.text (attributeValue attr))

def TextKept (body : Content) (fields : Data) : Prop :=
  ((texts body).flatMap String.toList).Sublist (storedText fields)

/-- The children take their values in the order of the document, each the first
that is left under its name, until none is left. -/
def ChildrenKept : Content → (String → List Value) → Prop
  | .done, left => ∀ name, ChildName name → left name = []
  | .element name attrs body rest, left =>
      ∃ value more, left (goLocalName name) = value :: more ∧
        AttributesKept attrs (fieldsOf value) ∧ TextKept body (fieldsOf value) ∧
        ChildrenKept body (entriesOf (fieldsOf value)) ∧
        ChildrenKept rest (Function.update left (goLocalName name) more)
  | .empty name attrs rest, left =>
      ∃ value more, left (goLocalName name) = value :: more ∧
        AttributesKept attrs (fieldsOf value) ∧
        ChildrenKept rest (Function.update left (goLocalName name) more)
  | .text _ rest, left => ChildrenKept rest left
  | .cdata _ rest, left => ChildrenKept rest left
  | .misc _ rest, left => ChildrenKept rest left

structure Kept (attrs : List Attribute) (body : Content) (fields : Data) : Prop where
  attributes : AttributesKept attrs fields
  text : TextKept body fields
  children : ChildrenKept body (entriesOf fields)

def AttributesApart (attrs : List Attribute) : Prop :=
  ∀ first ∈ attrs, ∀ second ∈ attrs, goLocalName first.name = goLocalName second.name →
    attributeValue first = attributeValue second

def OneText (body : Content) : Prop := (texts body).length ≤ 1

def ChildrenLossless : Content → Prop
  | .done => True
  | .element _ attrs body rest =>
      AttributesApart attrs ∧ OneText body ∧ ChildrenLossless body ∧ ChildrenLossless rest
  | .empty _ attrs rest => AttributesApart attrs ∧ ChildrenLossless rest
  | .text _ rest => ChildrenLossless rest
  | .cdata _ rest => ChildrenLossless rest
  | .misc _ rest => ChildrenLossless rest

structure Lossless (attrs : List Attribute) (body : Content) : Prop where
  attributes : AttributesApart attrs
  text : OneText body
  children : ChildrenLossless body

def Content.ProperNames : Content → Prop
  | .done => True
  | .element name _ body rest => '@' ∉ name.toList ∧ body.ProperNames ∧ rest.ProperNames
  | .empty name _ rest => '@' ∉ name.toList ∧ rest.ProperNames
  | .text _ rest => rest.ProperNames
  | .cdata _ rest => rest.ProperNames
  | .misc _ rest => rest.ProperNames

/-- A record element whose names are those of XML with namespaces. -/
structure RecordElement where
  attrs : List Attribute
  body : Content
  attributesRegular : ∀ attr ∈ attrs, attr.Regular
  regular : body.Regular
  proper : body.ProperNames

structure RecordElement.Named (isName : String → Bool) (record : RecordElement) : Prop where
  attributes : ∀ attr ∈ record.attrs, isName attr.name = true
  body : record.body.Named isName

/-- The value that is built from the tokens of the record, with the tokens left. -/
def decodedRecord (isName : String → Bool) (record : RecordElement)
    (after : List (Except String XmlToken)) : Option (Data × List XmlToken) :=
  match readAttributes isName record.attrs with
  | .error _ => none
  | .ok attrs =>
      elementDecoded
        (delivered (goTokens isName record.body (.ok .endElement :: after))).tokens
        (attributeFields attrs)

theorem attributeFields_snoc (attrs : List (String × String)) (attr : String × String) :
    attributeFields (attrs ++ [attr]) =
      (attributeFields attrs).set ("@" ++ attr.1) (.text attr.2) := by
  unfold attributeFields
  rw [List.foldl_append]
  rfl

theorem deliveredAttributes_snoc (attrs : List Attribute) (attr : Attribute) :
    deliveredAttributes (attrs ++ [attr]) =
      deliveredAttributes attrs ++ [(goLocalName attr.name, attributeValue attr)] := by
  unfold deliveredAttributes
  rw [List.map_append]
  rfl

private theorem at_inj {left right : String} (same : "@" ++ left = "@" ++ right) :
    left = right := by
  have lists := congrArg String.toList same
  rw [String.toList_append, String.toList_append] at lists
  exact String.toList_inj.mp (List.append_cancel_left lists)

private theorem lookup_attribute (attrs : List Attribute) {attr : Attribute}
    (member : attr ∈ attrs) :
    ∃ own ∈ attrs, goLocalName own.name = goLocalName attr.name ∧
      (attributeFields (deliveredAttributes attrs)).lookup ("@" ++ goLocalName attr.name) =
        some (.text (attributeValue own)) := by
  induction attrs using List.reverseRecOn with
  | nil => cases member
  | append_singleton attrs last ih =>
      rw [deliveredAttributes_snoc, attributeFields_snoc, Data.lookup_set]
      by_cases same : goLocalName last.name = goLocalName attr.name
      · refine ⟨last, List.mem_append_right _ List.mem_cons_self, same, ?_⟩
        rw [if_pos (by rw [same])]
      · have earlier : attr ∈ attrs := by
          rcases List.mem_append.mp member with inside | single
          · exact inside
          · rw [List.mem_singleton.mp single] at same
            exact absurd rfl same
        obtain ⟨own, among, named, found⟩ := ih earlier
        refine ⟨own, List.mem_append_left _ among, named, ?_⟩
        rw [if_neg (fun equal => same (at_inj equal).symm)]
        exact found

private theorem attributesKept_iff (attrs : List Attribute) {fields : Data}
    (same : ∀ attr ∈ attrs, fields.lookup ("@" ++ goLocalName attr.name) =
      (attributeFields (deliveredAttributes attrs)).lookup ("@" ++ goLocalName attr.name)) :
    AttributesKept attrs fields ↔ AttributesApart attrs := by
  constructor
  · intro kept first member second among named
    have one := kept first member
    have two := kept second among
    rw [← named, one] at two
    exact Value.text.inj (Option.some.inj two)
  · intro apart attr member
    obtain ⟨own, among, named, found⟩ := lookup_attribute attrs member
    rw [same attr member, found, apart own among attr member named]

variable {name : String}

theorem lookup_no_attribute {attrs : List Attribute} (plain : name.toList.head? ≠ some '@') :
    (attributeFields (deliveredAttributes attrs)).lookup name = none := by
  induction attrs using List.reverseRecOn with
  | nil => rfl
  | append_singleton attrs last ih =>
      rw [deliveredAttributes_snoc, attributeFields_snoc, Data.lookup_set, if_neg, ih]
      intro same
      apply plain
      rw [same, String.toList_append]
      rfl

def decodedElement (attrs : List Attribute) (body : Content) : Data :=
  readBody body (attributeFields (deliveredAttributes attrs))

def childValues : Content → String → List Value
  | .done, _ => []
  | .element name attrs body rest, asked =>
      if asked = goLocalName name then simplify (decodedElement attrs body) :: childValues rest asked
      else childValues rest asked
  | .empty name attrs rest, asked =>
      if asked = goLocalName name then simplify (decodedElement attrs .done) :: childValues rest asked
      else childValues rest asked
  | .text _ rest, asked => childValues rest asked
  | .cdata _ rest, asked => childValues rest asked
  | .misc _ rest, asked => childValues rest asked

theorem lookup_addMulti_other {name key : String} (other : name ≠ key) (fields : Data)
    (value : Value) : (addMulti fields key value).lookup name = fields.lookup name := by
  unfold addMulti
  split
  · rw [Data.lookup_set, if_neg other]
  · rw [Data.lookup_set, if_neg other]
  · rw [Data.lookup_set, if_neg other]

theorem entriesOf_addMulti {value : Value} (single : ∀ items, value ≠ .list items) (fields : Data)
    (key name : String) :
    entriesOf (addMulti fields key value) name =
      if name = key then entriesOf fields name ++ [value] else entriesOf fields name := by
  by_cases same : name = key
  · subst same
    rw [if_pos rfl]
    unfold entriesOf addMulti
    cases held : fields.lookup name with
    | none =>
        simp only [Data.lookup_set, if_true]
        cases value with
        | list items => exact absurd rfl (single items)
        | _ => rfl
    | some existing =>
        cases existing with
        | list items => simp only [Data.lookup_set, if_true]
        | _ =>
            simp only [Data.lookup_set, if_true]
            rfl
  · rw [if_neg same]
    unfold entriesOf
    rw [lookup_addMulti_other same]

theorem lookup_takeCharData_other (other : name ≠ "$text") (out : Data)
    (text : String) : (takeCharData out text).lookup name = out.lookup name := by
  unfold takeCharData
  split
  · rw [Data.lookup_set, if_neg other]
  · rfl

private theorem lookup_readBody_other (notText : name ≠ "$text") (content : Content) :
    ∀ out, name ∉ childNames goLocalName content → (readBody content out).lookup name = out.lookup name := by
  induction content with
  | done =>
      intro out _absent
      rfl
  | element child attrs body rest _ ih =>
      intro out absent
      obtain ⟨other, later⟩ := not_or.mp (fun either => absent (List.mem_cons.mpr either))
      simp only [readBody]
      rw [ih _ later, lookup_addMulti_other other]
  | empty child attrs rest ih =>
      intro out absent
      obtain ⟨other, later⟩ := not_or.mp (fun either => absent (List.mem_cons.mpr either))
      simp only [readBody]
      rw [ih _ later, lookup_addMulti_other other]
  | text raw rest ih =>
      intro out absent
      simp only [readBody]
      rw [ih _ absent, lookup_takeCharData_other notText]
  | cdata chars rest ih =>
      intro out absent
      simp only [readBody]
      rw [ih _ absent, lookup_takeCharData_other notText]
  | misc target rest ih => exact ih

theorem getLast?_nonBlank (text : String) (later : List String) (out : Data) :
    (((nonBlank text ++ later).getLast?).map Value.text).or (out.lookup "$text") =
      ((later.getLast?).map Value.text).or ((takeCharData out text).lookup "$text") := by
  unfold nonBlank takeCharData
  split
  · rw [Data.lookup_set, if_pos rfl, List.getLast?_append]
    cases later.getLast? with
    | none => rfl
    | some last => rfl
  · rfl

private theorem lookup_readBody_text {content : Content} (regular : content.Regular) :
    ∀ out, (readBody content out).lookup "$text" =
      ((texts content).getLast?.map Value.text).or (out.lookup "$text") := by
  induction content with
  | done =>
      intro out
      rfl
  | element child attrs body rest _ ih =>
      intro out
      simp only [readBody, texts]
      rw [ih regular.2.2.2, lookup_addMulti_other (goLocalName_ne_text regular.1).symm]
  | empty child attrs rest ih =>
      intro out
      simp only [readBody, texts]
      rw [ih regular.2.2, lookup_addMulti_other (goLocalName_ne_text regular.1).symm]
  | text raw rest ih =>
      intro out
      simp only [readBody, texts]
      rw [ih regular.2, getLast?_nonBlank]
  | cdata chars rest ih =>
      intro out
      simp only [readBody, texts]
      rw [ih regular, getLast?_nonBlank]
  | misc target rest ih => exact ih regular

theorem decodedElement_text (attrs : List Attribute) {body : Content} (regular : body.Regular) :
    (decodedElement attrs body).lookup "$text" = (texts body).getLast?.map Value.text := by
  unfold decodedElement
  rw [lookup_readBody_text regular, lookup_no_attribute (by decide), Option.or_none]

theorem fieldsOf_simplify {fields : Data}
    (textual : ∀ value, fields.lookup "$text" = some value → ∃ text, value = .text text) :
    fieldsOf (simplify fields) = fields := by
  unfold simplify
  split
  · rename_i key value
    split
    · rename_i named
      subst named
      obtain ⟨text, rfl⟩ := textual value List.lookup_cons_self
      rfl
    · rfl
  · rfl

theorem simplify_single {fields : Data}
    (textual : ∀ value, fields.lookup "$text" = some value → ∃ text, value = .text text)
    (items : List Value) : simplify fields ≠ .list items := by
  intro same
  unfold simplify at same
  split at same
  · rename_i key value
    split at same
    · rename_i named
      subst named
      obtain ⟨text, rfl⟩ := textual value List.lookup_cons_self
      cases same
    · cases same
  · cases same

theorem decodedElement_textual (attrs : List Attribute) {body : Content} (regular : body.Regular) :
    ∀ value, (decodedElement attrs body).lookup "$text" = some value →
      ∃ text, value = .text text := by
  intro value found
  rw [decodedElement_text attrs regular] at found
  obtain ⟨text, _, rfl⟩ := Option.map_eq_some_iff.mp found
  exact ⟨text, rfl⟩

theorem entriesOf_takeCharData (other : name ≠ "$text") (out : Data)
    (text : String) : entriesOf (takeCharData out text) name = entriesOf out name := by
  unfold entriesOf
  rw [lookup_takeCharData_other other]

theorem entriesOf_readBody (child : ChildName name) {content : Content}
    (regular : content.Regular) :
    ∀ out, entriesOf (readBody content out) name = entriesOf out name ++ childValues content name := by
  induction content with
  | done =>
      intro out
      exact (List.append_nil _).symm
  | element own attrs body rest _ ih =>
      intro out
      have single := simplify_single (decodedElement_textual attrs regular.2.2.1)
      simp only [readBody, childValues]
      rw [ih regular.2.2.2, ← decodedElement, entriesOf_addMulti single]
      split
      · rw [List.append_assoc]
        rfl
      · rfl
  | empty own attrs rest ih =>
      intro out
      have single := simplify_single (@decodedElement_textual attrs .done trivial)
      simp only [readBody, childValues]
      rw [ih regular.2.2]
      change entriesOf (addMulti out (goLocalName own) (simplify (decodedElement attrs .done))) name ++ _ = _
      rw [entriesOf_addMulti single]
      split
      · rw [List.append_assoc]
        rfl
      · rfl
  | text raw rest ih =>
      intro out
      simp only [readBody, childValues]
      rw [ih regular.2, entriesOf_takeCharData child.2]
  | cdata chars rest ih =>
      intro out
      simp only [readBody, childValues]
      rw [ih regular, entriesOf_takeCharData child.2]
  | misc target rest ih => exact ih regular

theorem childName_goLocalName (proper : NamespaceName name)
    (noAt : '@' ∉ name.toList) : ChildName (goLocalName name) := by
  refine ⟨?_, goLocalName_ne_text proper⟩
  rw [goLocalName_eq proper]
  intro head
  have within : '@' ∈ (localName name).toList := List.mem_of_mem_head? head
  unfold localName at within
  rw [String.toList_ofList, List.mem_reverse] at within
  exact noAt (List.mem_reverse.mp ((List.takeWhile_prefix _).mem within))

private theorem childName_of_mem {content : Content} (regular : content.Regular)
    (proper : content.ProperNames) : ∀ name ∈ childNames goLocalName content, ChildName name := by
  induction content with
  | done =>
      intro name absent
      cases absent
  | element own attrs body rest _ ih =>
      intro name member
      rcases List.mem_cons.mp member with same | later
      · rw [same]
        exact childName_goLocalName regular.1 proper.1
      · exact ih regular.2.2.2 proper.2.2 name later
  | empty own attrs rest ih =>
      intro name member
      rcases List.mem_cons.mp member with same | later
      · rw [same]
        exact childName_goLocalName regular.1 proper.1
      · exact ih regular.2.2 proper.2 name later
  | text raw rest ih => exact ih regular.2 proper
  | cdata chars rest ih => exact ih regular proper
  | misc target rest ih => exact ih regular proper

/-! ### One element -/

theorem element_attributes_iff (attrs : List Attribute) {body : Content} (regular : body.Regular)
    (proper : body.ProperNames) :
    AttributesKept attrs (decodedElement attrs body) ↔ AttributesApart attrs := by
  apply attributesKept_iff
  intro attr _member
  have head : ("@" ++ goLocalName attr.name).toList.head? = some '@' := by
    rw [String.toList_append]
    rfl
  apply lookup_readBody_other
  · intro same
    rw [same] at head
    exact absurd head (by decide)
  · intro member
    exact (childName_of_mem regular proper _ member).1 head

theorem nonBlank_ne_empty {text run : String} (member : run ∈ nonBlank text) : run ≠ "" := by
  unfold nonBlank at member
  split at member
  · rename_i shown
    rw [List.mem_singleton.mp member]
    intro empty
    apply shown
    rw [empty]
    decide
  · cases member

private theorem texts_ne_empty (content : Content) : ∀ run ∈ texts content, run ≠ "" := by
  induction content with
  | done =>
      intro run absent
      cases absent
  | element own attrs body rest _ ih => exact ih
  | empty own attrs rest ih => exact ih
  | text raw rest ih =>
      intro run member
      rcases List.mem_append.mp member with here | later
      · exact nonBlank_ne_empty here
      · exact ih run later
  | cdata chars rest ih =>
      intro run member
      rcases List.mem_append.mp member with here | later
      · exact nonBlank_ne_empty here
      · exact ih run later
  | misc target rest ih => exact ih

private theorem storedText_decodedElement (attrs : List Attribute) {body : Content}
    (regular : body.Regular) :
    storedText (decodedElement attrs body) =
      ((texts body).getLast?.map String.toList).getD [] := by
  unfold storedText
  rw [decodedElement_text attrs regular]
  cases (texts body).getLast? with
  | none => rfl
  | some last => rfl

theorem element_text_iff (attrs : List Attribute) {body : Content} (regular : body.Regular) :
    TextKept body (decodedElement attrs body) ↔ OneText body := by
  have shown := texts_ne_empty body
  unfold TextKept OneText
  rw [storedText_decodedElement attrs regular]
  rcases List.eq_nil_or_concat (texts body) with none | ⟨before, last, split⟩
  · rw [none]
    exact iff_of_true (List.nil_sublist _) (Nat.zero_le 1)
  · rw [List.concat_eq_append] at split
    rw [split] at shown
    rw [split, List.getLast?_append]
    change List.Sublist _ last.toList ↔ _
    rw [List.flatMap_append, List.length_append, List.flatMap_singleton]
    constructor
    · intro within
      have lengths := within.length_le
      rw [List.length_append] at lengths
      have nothing : before.flatMap String.toList = [] :=
        List.length_eq_zero_iff.mp (by omega)
      have empty : before = [] := by
        apply List.eq_nil_iff_forall_not_mem.mpr
        intro run member
        apply shown run (List.mem_append_left _ member)
        exact String.toList_eq_nil_iff.mp (List.flatMap_eq_nil_iff.mp nothing run member)
      rw [empty]
      exact Nat.le_refl 1
    · intro single
      have empty : before = [] := List.length_eq_zero_iff.mp (by
        rw [List.length_singleton] at single
        omega)
      rw [empty]
      exact List.Sublist.refl _

theorem entriesOf_decodedElement (child : ChildName name) (attrs : List Attribute)
    {body : Content} (regular : body.Regular) :
    entriesOf (decodedElement attrs body) name = childValues body name := by
  have empty : entriesOf (attributeFields (deliveredAttributes attrs)) name = [] := by
    unfold entriesOf
    rw [lookup_no_attribute child.1]
  unfold decodedElement
  rw [entriesOf_readBody child regular, empty, List.nil_append]

theorem exists_cons_iff {Item : Type} {items : List Item} {head : Item} {tail : List Item}
    (shape : items = head :: tail) (holds : Item → List Item → Prop) :
    (∃ value more, items = value :: more ∧ holds value more) ↔ holds head tail := by
  constructor
  · rintro ⟨value, more, same, kept⟩
    rw [shape] at same
    obtain ⟨one, two⟩ := List.cons.inj same
    rw [one, two]
    exact kept
  · intro kept
    exact ⟨head, tail, shape, kept⟩

theorem left_update {left : String → List Value} {values : String → List Value} {own : String}
    {first : Value}
    (same : ∀ name, ChildName name →
      left name = if name = own then first :: values name else values name) :
    ∀ name, ChildName name → Function.update left own (values own) name = values name := by
  intro name child
  by_cases asked : name = own
  · subst asked
    rw [Function.update_self]
  · rw [Function.update_of_ne asked, same name child, if_neg asked]

theorem childrenKept_iff {content : Content} (regular : content.Regular)
    (proper : content.ProperNames) :
    ∀ left : String → List Value, (∀ name, ChildName name → left name = childValues content name) →
      (ChildrenKept content left ↔ ChildrenLossless content) := by
  induction content with
  | done =>
      intro left same
      exact iff_of_true same trivial
  | element own attrs body rest inner ih =>
      intro left same
      obtain ⟨named, _, regularBody, regularRest⟩ := regular
      obtain ⟨noAt, properBody, properRest⟩ := proper
      have first := same _ (childName_goLocalName named noAt)
      simp only [childValues, if_true] at first
      have whole := fieldsOf_simplify (decodedElement_textual attrs regularBody)
      have children := fun name (child : ChildName name) =>
        entriesOf_decodedElement child attrs regularBody
      simp only [ChildrenKept, ChildrenLossless]
      rw [exists_cons_iff first, whole, element_attributes_iff attrs regularBody properBody,
        element_text_iff attrs regularBody, inner regularBody properBody _ children,
        ih regularRest properRest _ (left_update same)]
  | empty own attrs rest ih =>
      intro left same
      obtain ⟨named, _, regularRest⟩ := regular
      obtain ⟨noAt, properRest⟩ := proper
      have first := same _ (childName_goLocalName named noAt)
      simp only [childValues, if_true] at first
      have whole := fieldsOf_simplify (@decodedElement_textual attrs .done trivial)
      simp only [ChildrenKept, ChildrenLossless]
      rw [exists_cons_iff first, whole, @element_attributes_iff attrs .done trivial trivial,
        ih regularRest properRest _ (left_update same)]
  | text raw rest ih => exact ih regular.2 proper
  | cdata chars rest ih => exact ih regular proper
  | misc target rest ih => exact ih regular proper

theorem kept_iff (record : RecordElement) :
    Kept record.attrs record.body (decodedElement record.attrs record.body) ↔
      Lossless record.attrs record.body := by
  have attributes := element_attributes_iff record.attrs record.regular record.proper
  have text := element_text_iff record.attrs record.regular
  have children := childrenKept_iff record.regular record.proper _
    (fun _ child => entriesOf_decodedElement child record.attrs record.regular)
  constructor
  · intro kept
    exact ⟨attributes.mp kept.attributes, text.mp kept.text, children.mp kept.children⟩
  · intro lossless
    exact ⟨attributes.mpr lossless.attributes, text.mpr lossless.text,
      children.mpr lossless.children⟩

section Tokens

variable {isName : String → Bool}

theorem named_of_start {attrs : List Attribute} (started : goStart isName name attrs = true) :
    isName name = true ∧ ∀ attr ∈ attrs, isName attr.name = true := by
  obtain ⟨named, attributes⟩ := Bool.and_eq_true_iff.mp started
  refine ⟨(Bool.and_eq_true_iff.mp named).1, ?_⟩
  intro attr member
  have taken := List.all_eq_true.mp attributes attr member
  exact (Bool.and_eq_true_iff.mp (Bool.and_eq_true_iff.mp taken).1).1

private theorem named_of_decodable {content : Content}
    (decodable : content.decodable isName = true) :
    content.Named isName := by
  induction content with
  | done => trivial
  | element name attrs body rest inner ih =>
      rw [Content.decodable, Bool.and_eq_true, Bool.and_eq_true] at decodable
      obtain ⟨⟨started, inside⟩, behind⟩ := decodable
      exact ⟨(named_of_start started).1, (named_of_start started).2, inner inside, ih behind⟩
  | empty name attrs rest ih =>
      obtain ⟨started, behind⟩ := Bool.and_eq_true_iff.mp decodable
      exact ⟨(named_of_start started).1, (named_of_start started).2, ih behind⟩
  | text raw rest ih => exact ih (Bool.and_eq_true_iff.mp decodable).2
  | cdata chars rest ih => exact ih decodable
  | misc target rest ih =>
      obtain ⟨here, behind⟩ := Bool.and_eq_true_iff.mp decodable
      exact ⟨here, ih behind⟩

theorem decodedRecord_named {record : RecordElement} (named : record.Named isName)
    (after : List (Except String XmlToken)) :
    decodedRecord isName record after =
      some (decodedElement record.attrs record.body, (delivered after).tokens) := by
  unfold decodedRecord
  rw [readAttributes_eq (attributes_of_plain record.attributesRegular named.attributes)]
  exact elementDecoded_content (decodable_of_plain record.regular named.body) _ after

private theorem decodedRecord_unnamed {record : RecordElement} (unnamed : ¬record.Named isName)
    (after : List (Except String XmlToken)) : decodedRecord isName record after = none := by
  unfold decodedRecord
  rcases Bool.eq_false_or_eq_true (record.attrs.all
      (fun attr => goName isName attr.name && !hasOwnEntity attr.value)) with taken | refused
  · rw [readAttributes_eq taken]
    apply elementDecoded_failing
    apply Bool.eq_false_iff.mpr
    intro decodable
    apply unnamed
    refine ⟨?_, named_of_decodable decodable⟩
    intro attr member
    have own := Bool.and_eq_true_iff.mp (List.all_eq_true.mp taken attr member)
    exact (Bool.and_eq_true_iff.mp own.1).1
  · obtain ⟨problem, failed⟩ := readAttributes_error refused
    rw [failed]

end Tokens

/-- From a record whose names the decoder takes a value is built, and it has what the
element has exactly under the condition on its own texts and attributes and on those of
the elements in it. -/
theorem record_kept_iff (isName : String → Bool) (record : RecordElement)
    (after : List (Except String XmlToken)) :
    (¬record.Named isName ∧ decodedRecord isName record after = none) ∨
      ∃ fields, record.Named isName ∧
        decodedRecord isName record after = some (fields, (delivered after).tokens) ∧
        (Kept record.attrs record.body fields ↔ Lossless record.attrs record.body) := by
  by_cases named : record.Named isName
  · right
    exact ⟨_, named, decodedRecord_named named after, kept_iff record⟩
  · left
    exact ⟨named, decodedRecord_unnamed named after⟩

theorem noOwnEntity_literal (c : Char) : NoOwnEntity [.literal c] := by
  intro name member
  cases List.mem_singleton.mp member

def interruptedText : RecordElement where
  attrs := []
  body := .text [.literal 'a'] (.empty "b" [] (.text [.literal 'c'] .done))
  attributesRegular := fun attr absent => absurd absent List.not_mem_nil
  regular := ⟨noOwnEntity_literal 'a', ⟨by decide, .inl (by decide)⟩,
    fun attr absent => absurd absent List.not_mem_nil, noOwnEntity_literal 'c', trivial⟩
  proper := ⟨by decide, trivial⟩

def prefixedAttributes : RecordElement where
  attrs := [{ name := "a:id", value := [.literal '1'] }, { name := "b:id", value := [.literal '2'] }]
  body := .done
  attributesRegular := by
    intro attr member
    rcases List.mem_cons.mp member with first | later
    · rw [first]
      exact ⟨⟨by decide, .inr ⟨['a'], ['i', 'd'], by decide⟩⟩, noOwnEntity_literal '1'⟩
    · rw [List.mem_singleton.mp later]
      exact ⟨⟨by decide, .inr ⟨['b'], ['i', 'd'], by decide⟩⟩, noOwnEntity_literal '2'⟩
  regular := trivial
  proper := trivial

theorem content_lost :
    (∃ fields, decodedRecord asciiName interruptedText [] = some (fields, []) ∧
        fields.lookup "$text" = some (.text "c") ∧
        ¬Kept interruptedText.attrs interruptedText.body fields) ∧
      ∃ fields, decodedRecord asciiName prefixedAttributes [] = some (fields, []) ∧
        fields.lookup "@id" = some (.text "2") ∧
        ¬Kept prefixedAttributes.attrs prefixedAttributes.body fields := by
  constructor
  · have named : interruptedText.Named asciiName :=
      ⟨noAttribute_named, by decide +kernel, noAttribute_named, trivial⟩
    refine ⟨_, decodedRecord_named named [], rfl, ?_⟩
    intro kept
    have single : (texts interruptedText.body).length ≤ 1 := ((kept_iff interruptedText).mp kept).text
    exact absurd single (by decide)
  · have attributes : ∀ attr ∈ prefixedAttributes.attrs, asciiName attr.name = true := by
      decide +kernel
    refine ⟨_, decodedRecord_named ⟨attributes, trivial⟩ [], rfl, ?_⟩
    intro kept
    have first := kept.attributes { name := "a:id", value := [.literal '1'] } List.mem_cons_self
    have stored := Value.text.inj (Option.some.inj first)
    exact absurd stored (by decide)

end MigrationPlatform.Sampling
