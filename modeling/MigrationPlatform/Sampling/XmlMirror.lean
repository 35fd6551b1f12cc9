/-
The rows of the XML sampler beside the rows of the XML connector.

The sampler passes over records that are self-closing elements and refuses a
document when a record that it reads refers to an entity of the document; the
connector ends before the first thing that its decoder does not support. Within
a record both name the same columns except for `$text`, which the sampler does
not take from CDATA sections nor from text that is only Unicode white space.
`xml_sample_mirrors_iff` puts this together.
-/

import MigrationPlatform.Sampling.XmlSampler
import Mathlib.Data.List.Forall2
import Mathlib.Data.List.TakeWhile

namespace MigrationPlatform.Sampling

open MigrationPlatform.Connectors
open ResumableIteration (take take_row)

def HasColumn (row : Data) (name : String) : Prop := (row.lookup name).isSome = true

def SameColumns (sampled read : Data) : Prop := ∀ name, HasColumn sampled name ↔ HasColumn read name

def sampledRows : Except String (List Data × Bool) → List Data
  | .ok (rows, _) => rows
  | .error _ => []

def connectorRows (isName : String → Bool) (doc : Document) (tag : String) (count : Nat) :
    List Data :=
  (iterate (xmlConnector tag (goContent isName doc)).toConnector count).1.map Row.data

/-- Up to any cap the rows correspond one to one, with the same columns. -/
def Mirrors (isName : String → Bool) (doc : Document) (tag : String) : Prop :=
  ∀ rowCap, List.Forall₂ SameColumns (sampledRows (sampleXml doc rowCap tag))
    (connectorRows isName doc tag rowCap)

/-! ### Records as they are written -/

def hasOwnEntity (raw : RawText) : Bool :=
  raw.any (fun written =>
    match written with
    | .literal _ => false
    | .reference _ => false
    | .entity _ => true)

/-- The decoder takes the name. -/
def goName (isName : String → Bool) (name : String) : Bool :=
  isName name && decide (name.toList.count ':' ≤ 1)

def goStart (isName : String → Bool) (name : String) (attrs : List Attribute) : Bool :=
  goName isName name && attrs.all (fun attr => goName isName attr.name && !hasOwnEntity attr.value)

def Content.decodable (isName : String → Bool) : Content → Bool
  | .done => true
  | .element name attrs body rest =>
      goStart isName name attrs && body.decodable isName && rest.decodable isName
  | .empty name attrs rest => goStart isName name attrs && rest.decodable isName
  | .text raw rest => !hasOwnEntity raw && rest.decodable isName
  | .cdata _ rest => rest.decodable isName
  | .misc target rest => target.all isName && rest.decodable isName

def Content.sampleable : Content → Bool
  | .done => true
  | .element _ _ body rest => body.sampleable && rest.sampleable
  | .empty _ _ rest => rest.sampleable
  | .text raw rest => !hasOwnEntity raw && rest.sampleable
  | .cdata _ rest => rest.sampleable
  | .misc _ rest => rest.sampleable

inductive Record
  | element (attrs : List Attribute) (body : Content)
  | selfClosing (attrs : List Attribute)
deriving DecidableEq

def Record.isSelfClosing : Record → Bool
  | .element _ _ => false
  | .selfClosing _ => true

def Record.attrs : Record → List Attribute
  | .element attrs _ => attrs
  | .selfClosing attrs => attrs

def Record.body : Record → Content
  | .element _ body => body
  | .selfClosing _ => .done

/-- The records at the positions where the sampler looks for them. -/
def records (tag : String) : Content → List Record
  | .done => []
  | .element name attrs body rest =>
      if localName name = tag then .element attrs body :: records tag rest
      else records tag body ++ records tag rest
  | .empty name attrs rest =>
      if localName name = tag then .selfClosing attrs :: records tag rest else records tag rest
  | .text _ rest => records tag rest
  | .cdata _ rest => records tag rest
  | .misc _ rest => records tag rest

def sampledElements (tag : String) (content : Content) : List Record :=
  (records tag content).filter (fun record => !record.isSelfClosing)

/-- The records that the decoder comes to; `none` is where it fails. -/
def decoderRecords (isName : String → Bool) (tag : String) : Content → List (Option Record)
  | .done => []
  | .element name attrs body rest =>
      if goStart isName name attrs = true then
        if goLocalName name = tag then
          (if body.decodable isName = true then some (.element attrs body) else none) ::
            decoderRecords isName tag rest
        else decoderRecords isName tag body ++ decoderRecords isName tag rest
      else [none]
  | .empty name attrs rest =>
      if goStart isName name attrs = true then
        if goLocalName name = tag then some (.selfClosing attrs) :: decoderRecords isName tag rest
        else decoderRecords isName tag rest
      else [none]
  | .text raw rest => if hasOwnEntity raw = true then [none] else decoderRecords isName tag rest
  | .cdata _ rest => decoderRecords isName tag rest
  | .misc target rest =>
      if target.all isName = true then decoderRecords isName tag rest else [none]

def beforeFailure {Item : Type} : List (Option Item) → List Item
  | some item :: rest => item :: beforeFailure rest
  | none :: _ => []
  | [] => []

def Document.supported (doc : Document) : Bool :=
  match doc.declaration with
  | none => true
  | some content => (declarationToken content).toBool

def deliveredRecords (isName : String → Bool) (tag : String) (doc : Document) : List Record :=
  if doc.supported = true then beforeFailure (decoderRecords isName tag doc.content) else []

/-! ### Columns as they are written -/

def writtenChars (raw : RawText) : List Char :=
  raw.filterMap (fun written =>
    match written with
    | .literal c => some c
    | .reference c => some c
    | .entity _ => none)

/-- Some text of the element itself has a character that is not Unicode white space. -/
def Content.hasText : Content → Bool
  | .done => false
  | .element _ _ _ rest => rest.hasText
  | .empty _ _ rest => rest.hasText
  | .text raw rest => (writtenChars raw).any (fun c => !Batch.isSpaceRune c) || rest.hasText
  | .cdata _ rest => rest.hasText
  | .misc _ rest => rest.hasText

/-- Some text or CDATA section of the element itself has a character other than
space, tab, carriage return and line feed. -/
def Content.hasCharData : Content → Bool
  | .done => false
  | .element _ _ _ rest => rest.hasCharData
  | .empty _ _ rest => rest.hasCharData
  | .text raw rest => (writtenChars raw).any (fun c => !isSpace c) || rest.hasCharData
  | .cdata chars rest => chars.toList.any (fun c => !isSpace c) || rest.hasCharData
  | .misc _ rest => rest.hasCharData

def childNames (part : String → String) : Content → List String
  | .done => []
  | .element name _ _ rest => part name :: childNames part rest
  | .empty name _ rest => part name :: childNames part rest
  | .text _ rest => childNames part rest
  | .cdata _ rest => childNames part rest
  | .misc _ rest => childNames part rest

def Record.SampledColumn (record : Record) (name : String) : Prop :=
  (∃ attr ∈ record.attrs, name = "@" ++ attributeLocalName attr.name) ∨
    name ∈ childNames localName record.body ∨ (name = "$text" ∧ record.body.hasText = true)

def Record.ReadColumn (record : Record) (name : String) : Prop :=
  (∃ attr ∈ record.attrs, name = "@" ++ goLocalName attr.name) ∨
    name ∈ childNames goLocalName record.body ∨ (name = "$text" ∧ record.body.hasCharData = true)

def SameNames (sampled read : Record) : Prop :=
  ∀ name, sampled.SampledColumn name ↔ read.ReadColumn name

/-- The records of both sides are as many, and name the same columns pair by pair; or the
connector delivers none, and the sampler refuses one of the first two. -/
def RecordsAlike (isName : String → Bool) (doc : Document) (tag : String) : Prop :=
  ((∀ record ∈ sampledElements (recordTag tag) doc.content, record.body.sampleable = true) ∧
      List.Forall₂ SameNames (sampledElements (recordTag tag) doc.content)
        (deliveredRecords isName (recordTag tag) doc)) ∨
    (deliveredRecords isName (recordTag tag) doc = [] ∧
      ∃ record ∈ (sampledElements (recordTag tag) doc.content).take 2,
        record.body.sampleable = false)

/-! ### Plain documents -/

/-- A name without a colon, or with one between a prefix and a local part. No
name of XML has a dollar sign. -/
structure NamespaceName (name : String) : Prop where
  noDollar : '$' ∉ name.toList
  colons : ':' ∉ name.toList ∨ ∃ space part : List Char, name.toList = space ++ ':' :: part ∧
    space ≠ [] ∧ part ≠ [] ∧ ':' ∉ space ∧ ':' ∉ part

def NoOwnEntity (raw : RawText) : Prop := ∀ name, RawChar.entity name ∉ raw

def Attribute.Regular (attr : Attribute) : Prop :=
  NamespaceName attr.name ∧ NoOwnEntity attr.value

/-- The names are those of a document with namespaces, and no reference is to an
entity that the document declares itself. -/
def Content.Regular : Content → Prop
  | .done => True
  | .element name attrs body rest =>
      NamespaceName name ∧ (∀ attr ∈ attrs, attr.Regular) ∧ body.Regular ∧ rest.Regular
  | .empty name attrs rest =>
      NamespaceName name ∧ (∀ attr ∈ attrs, attr.Regular) ∧ rest.Regular
  | .text raw rest => NoOwnEntity raw ∧ rest.Regular
  | .cdata _ rest => rest.Regular
  | .misc _ rest => rest.Regular

def Content.Named (isName : String → Bool) : Content → Prop
  | .done => True
  | .element name attrs body rest =>
      isName name = true ∧ (∀ attr ∈ attrs, isName attr.name = true) ∧ body.Named isName ∧
        rest.Named isName
  | .empty name attrs rest =>
      isName name = true ∧ (∀ attr ∈ attrs, isName attr.name = true) ∧ rest.Named isName
  | .text _ rest => rest.Named isName
  | .cdata _ rest => rest.Named isName
  | .misc target rest => target.all isName = true ∧ rest.Named isName

structure Document.Plain (isName : String → Bool) (doc : Document) : Prop where
  regular : doc.content.Regular
  named : doc.content.Named isName

def Record.Mirrored : Record → Prop
  | .element _ body => body.hasText = body.hasCharData
  | .selfClosing _ => False

/-- Every record that both readers come to is mirrored. Where the connector's
decoder does not support the declaration, there is none that the sampler reads. -/
def RecordsMirrored (doc : Document) (tag : String) : Prop :=
  if doc.supported = true then ∀ record ∈ records (recordTag tag) doc.content, record.Mirrored
  else ∀ record ∈ records (recordTag tag) doc.content, record.isSelfClosing = true

theorem all_other {name : List Char} (noColon : ':' ∉ name) : ∀ c ∈ name, (c != ':') = true := by
  intro c member
  apply bne_iff_ne.mpr
  intro same
  exact noColon (same ▸ member)

theorem takeWhile_colon {part rest : List Char} (noColon : ':' ∉ part) :
    (part ++ ':' :: rest).takeWhile (fun c => c != ':') = part := by
  rw [List.takeWhile_append_of_pos (all_other noColon)]
  exact List.append_nil part

theorem dropWhile_colon {part rest : List Char} (noColon : ':' ∉ part) :
    (part ++ ':' :: rest).dropWhile (fun c => c != ':') = ':' :: rest := by
  rw [List.dropWhile_append_of_pos (all_other noColon)]
  rfl

variable {name : String}

theorem localName_plain (noColon : ':' ∉ name.toList) : localName name = name := by
  unfold localName
  rw [List.takeWhile_eq_self_iff.mpr, List.reverse_reverse, String.ofList_toList]
  intro c member
  exact all_other noColon c (List.mem_reverse.mp member)

theorem localName_prefixed {space part : List Char}
    (shape : name.toList = space ++ ':' :: part) (noColon : ':' ∉ part) :
    localName name = String.ofList part := by
  have reversed : ':' ∉ part.reverse := fun member => noColon (List.mem_reverse.mp member)
  unfold localName
  rw [shape, List.reverse_append, List.reverse_cons, List.append_assoc, List.singleton_append,
    takeWhile_colon reversed, List.reverse_reverse]

private theorem attributeLocalName_eq (proper : NamespaceName name) :
    attributeLocalName name = localName name := by
  unfold attributeLocalName
  rcases proper.colons with noColon | ⟨space, part, shape, _, _, noSpaceColon, noPartColon⟩
  · rw [List.dropWhile_eq_nil_iff.mpr (all_other noColon), localName_plain noColon]
  · rw [localName_prefixed shape noPartColon, shape, dropWhile_colon noSpaceColon]

theorem goLocalName_eq (proper : NamespaceName name) :
    goLocalName name = localName name := by
  unfold goLocalName
  dsimp only
  rcases proper.colons with noColon | ⟨space, part, shape, nonempty, named, noSpaceColon, noPartColon⟩
  · rw [List.dropWhile_eq_nil_iff.mpr (all_other noColon), localName_plain noColon]
    simp
  · rw [localName_prefixed shape noPartColon, shape, dropWhile_colon noSpaceColon,
      takeWhile_colon noSpaceColon]
    simp [nonempty, named]

private theorem count_colon (proper : NamespaceName name) : name.toList.count ':' ≤ 1 := by
  rcases proper.colons with noColon | ⟨space, part, shape, _, _, noSpaceColon, noPartColon⟩
  · rw [List.count_eq_zero.mpr noColon]
    exact Nat.zero_le 1
  · rw [shape, List.count_append, List.count_cons_self, List.count_eq_zero.mpr noSpaceColon,
      List.count_eq_zero.mpr noPartColon]

theorem trimmed_eq_nil_iff {space : Char → Bool} (chars : List Char) :
    ((chars.dropWhile space).reverse.dropWhile space).reverse = [] ↔
      chars.any (fun c => !space c) = false := by
  rw [List.reverse_eq_nil_iff, List.dropWhile_eq_nil_iff, List.any_eq_false]
  constructor
  · intro spaces c member
    rw [Bool.not_eq_true, Bool.not_eq_false']
    rw [← List.takeWhile_append_dropWhile (p := space) (l := chars)] at member
    rcases List.mem_append.mp member with early | late
    · exact List.mem_takeWhile_imp early
    · exact spaces c (List.mem_reverse.mpr late)
  · intro spaces c member
    have whole := spaces c ((List.dropWhile_suffix _).mem (List.mem_reverse.mp member))
    rw [Bool.not_eq_true, Bool.not_eq_false'] at whole
    exact whole

theorem trim_ne_empty_iff (text : String) :
    trim text ≠ "" ↔ text.toList.any (fun c => !isSpace c) = true := by
  unfold trim
  rw [← Bool.not_eq_false, ← trimmed_eq_nil_iff, Ne, String.ofList_eq_empty_iff]

variable {raw : RawText}

theorem resolve_eq (own : hasOwnEntity raw = false) :
    resolve raw = .ok (writtenChars raw) := by
  induction raw with
  | nil => rfl
  | cons head rest ih =>
      cases head with
      | literal c =>
          simp only [resolve, ih own]
          rfl
      | reference c =>
          simp only [resolve, ih own]
          rfl
      | entity name => cases own

theorem resolve_error (own : hasOwnEntity raw = true) :
    ∃ problem, resolve raw = .error problem := by
  induction raw with
  | nil => cases own
  | cons head rest ih =>
      cases head with
      | literal c =>
          obtain ⟨problem, failed⟩ := ih own
          exact ⟨problem, by simp only [resolve, failed]; rfl⟩
      | reference c =>
          obtain ⟨problem, failed⟩ := ih own
          exact ⟨problem, by simp only [resolve, failed]; rfl⟩
      | entity name => exact ⟨_, rfl⟩

theorem hasOwnEntity_rewriteLines (raw : RawText) (returned : Bool) :
    hasOwnEntity (rewriteLines returned raw) = hasOwnEntity raw := by
  induction raw generalizing returned with
  | nil => rfl
  | cons head rest ih =>
      cases head with
      | literal c =>
          unfold rewriteLines
          split
          · exact ih true
          · split
            · exact ih false
            · exact ih false
      | reference c => exact ih false
      | entity name => rfl

theorem hasOwnEntity_dropWhile (raw : RawText) :
    hasOwnEntity (raw.dropWhile isWrittenSpace) = hasOwnEntity raw := by
  induction raw with
  | nil => rfl
  | cons head rest ih =>
      rw [List.dropWhile_cons]
      split
      · rename_i space
        cases head with
        | literal c => exact ih
        | reference c => cases space
        | entity name => cases space
      · rfl

theorem hasOwnEntity_trimRaw (raw : RawText) : hasOwnEntity (trimRaw raw) = hasOwnEntity raw := by
  have turned : ∀ other : RawText, hasOwnEntity other.reverse = hasOwnEntity other := by
    intro other
    unfold hasOwnEntity
    exact List.any_reverse
  unfold trimRaw
  rw [turned, hasOwnEntity_dropWhile, turned, hasOwnEntity_dropWhile]

theorem hasOwnEntity_eq_false (own : NoOwnEntity raw) :
    hasOwnEntity raw = false := by
  unfold hasOwnEntity
  rw [List.any_eq_false]
  intro written member
  cases written with
  | literal c => exact Bool.false_ne_true
  | reference c => exact Bool.false_ne_true
  | entity name => exact absurd member (own name)

private theorem any_rewriteLines (raw : RawText) (returned : Bool) :
    (writtenChars (rewriteLines returned raw)).any (fun c => !isSpace c) =
      (writtenChars raw).any (fun c => !isSpace c) := by
  induction raw generalizing returned with
  | nil => rfl
  | cons head rest ih =>
      cases head with
      | literal c =>
          unfold rewriteLines
          split
          · rename_i carriage
            rw [carriage]
            exact ih true
          · split
            · rename_i feed
              rw [feed.2]
              exact ih false
            · exact congrArg (fun later => !isSpace c || later) (ih false)
      | reference c => exact congrArg (fun later => !isSpace c || later) (ih false)
      | entity name => exact ih false

private theorem isSpaceRune_of_isSpace {c : Char} (space : isSpace c = true) :
    Batch.isSpaceRune c = true := by
  unfold isSpace at space
  simp only [Bool.or_eq_true, beq_iff_eq] at space
  rcases space with ((blank | feed) | tab) | carriage
  · rw [blank]
    decide
  · rw [feed]
    decide
  · rw [tab]
    decide
  · rw [carriage]
    decide

theorem any_dropWhile_written (raw : RawText) :
    (writtenChars (raw.dropWhile isWrittenSpace)).any (fun c => !Batch.isSpaceRune c) =
      (writtenChars raw).any (fun c => !Batch.isSpaceRune c) := by
  induction raw with
  | nil => rfl
  | cons head rest ih =>
      rw [List.dropWhile_cons]
      split
      · rename_i space
        cases head with
        | literal c =>
            have rune := isSpaceRune_of_isSpace space
            change _ = (!Batch.isSpaceRune c || (writtenChars rest).any _)
            rw [rune, ih]
            rfl
        | reference c => cases space
        | entity name => cases space
      · rfl

theorem any_reverse_written (raw : RawText) :
    (writtenChars raw.reverse).any (fun c => !Batch.isSpaceRune c) =
      (writtenChars raw).any (fun c => !Batch.isSpaceRune c) := by
  unfold writtenChars
  rw [List.filterMap_reverse, List.any_reverse]

private theorem any_trimRaw (raw : RawText) :
    (writtenChars (trimRaw raw)).any (fun c => !Batch.isSpaceRune c) =
      (writtenChars raw).any (fun c => !Batch.isSpaceRune c) := by
  unfold trimRaw
  rw [any_reverse_written, any_dropWhile_written, any_reverse_written, any_dropWhile_written]

/-! ### Columns -/

theorem hasColumn_set (row : Data) (key : String) (value : Value) (name : String) :
    HasColumn (row.set key value) name ↔ name = key ∨ HasColumn row name := by
  unfold HasColumn
  rw [Data.lookup_set]
  split
  · rename_i same
    exact iff_of_true rfl (.inl same)
  · rename_i other
    constructor
    · exact .inr
    · intro either
      exact either.resolve_left other

theorem hasColumn_insertFirstOnly (row : Data) (key : String) (value : Value) (name : String) :
    HasColumn (insertFirstOnly row key value) name ↔ name = key ∨ HasColumn row name := by
  unfold insertFirstOnly
  split
  · rename_i old found
    constructor
    · exact .inr
    · rintro (same | present)
      · rw [same]
        unfold HasColumn
        rw [found]
        rfl
      · exact present
  · exact hasColumn_set row key value name

theorem hasColumn_addMulti (row : Data) (key : String) (value : Value) (name : String) :
    HasColumn (addMulti row key value) name ↔ name = key ∨ HasColumn row name := by
  unfold addMulti
  split
  · exact hasColumn_set row key _ name
  · exact hasColumn_set row key _ name
  · exact hasColumn_set row key _ name

theorem hasColumn_foldl {Item : Type} (key : Item → String) (value : Item → Value) (name : String) :
    ∀ (items : List Item) (row : Data),
      HasColumn (items.foldl (fun fields item => fields.set (key item) (value item)) row) name ↔
        (∃ item ∈ items, name = key item) ∨ HasColumn row name := by
  intro items
  induction items with
  | nil =>
      intro row
      rw [List.foldl_nil]
      constructor
      · exact .inr
      · rintro (⟨item, absent, _⟩ | present)
        · cases absent
        · exact present
  | cons item rest ih =>
      intro row
      rw [List.foldl_cons, ih, hasColumn_set, ← or_assoc]
      apply or_congr_left
      rw [List.exists_mem_cons_iff, or_comm]

def deliveredAttributes (attrs : List Attribute) : List (String × String) :=
  attrs.map (fun attr =>
    (goLocalName attr.name, String.ofList (writtenChars (rewriteLines false attr.value))))

private theorem hasColumn_sampleAttributes (attrs : List Attribute) (name : String) :
    HasColumn (sampleAttributes attrs) name ↔
      ∃ attr ∈ attrs, name = "@" ++ attributeLocalName attr.name := by
  have noColumn : ¬ HasColumn [] name := fun present => by cases present
  unfold sampleAttributes
  rw [hasColumn_foldl (fun attr : Attribute => "@" ++ attributeLocalName attr.name)
      (fun attr => .text (attributeText attr.value)), or_iff_left noColumn]

private theorem hasColumn_deliveredAttributes (attrs : List Attribute) (name : String) :
    HasColumn (attributeFields (deliveredAttributes attrs)) name ↔
      ∃ attr ∈ attrs, name = "@" ++ goLocalName attr.name := by
  have noColumn : ¬ HasColumn [] name := fun present => by cases present
  unfold attributeFields
  rw [hasColumn_foldl (fun attr : String × String => "@" ++ attr.1) (fun attr => .text attr.2),
    or_iff_left noColumn]
  constructor
  · rintro ⟨pair, found, same⟩
    obtain ⟨attr, member, shape⟩ := List.mem_map.mp found
    exact ⟨attr, member, by rw [same, ← shape]⟩
  · rintro ⟨attr, member, same⟩
    exact ⟨_, List.mem_map_of_mem member, same⟩

def sampleBody : Content → Data → Data
  | .done, out => out
  | .element name attrs body rest, out =>
      sampleBody rest (insertFirstOnly out (localName name)
        (simplify (sampleBody body (sampleAttributes attrs))))
  | .empty name attrs rest, out =>
      sampleBody rest (insertFirstOnly out (localName name) (emptyElementValue attrs))
  | .text raw rest, out => sampleBody rest (sampleText out (writtenChars (trimRaw raw)))
  | .cdata _ rest, out => sampleBody rest out
  | .misc _ rest, out => sampleBody rest out

def takeCharData (out : Data) (text : String) : Data :=
  if trim text ≠ "" then out.set "$text" (.text text) else out

def readBody : Content → Data → Data
  | .done, out => out
  | .element name attrs body rest, out =>
      readBody rest (addMulti out (goLocalName name)
        (simplify (readBody body (attributeFields (deliveredAttributes attrs)))))
  | .empty name attrs rest, out =>
      readBody rest (addMulti out (goLocalName name)
        (simplify (attributeFields (deliveredAttributes attrs))))
  | .text raw rest, out =>
      readBody rest (takeCharData out (String.ofList (writtenChars (rewriteLines false raw))))
  | .cdata text rest, out => readBody rest (takeCharData out text)
  | .misc _ rest, out => readBody rest out

private theorem hasColumn_sampleText (out : Data) (raw : RawText) (name : String) :
    HasColumn (sampleText out (writtenChars (trimRaw raw))) name ↔
      HasColumn out name ∨
        (name = "$text" ∧ (writtenChars raw).any (fun c => !Batch.isSpaceRune c) = true) := by
  have shown : Batch.trimRunes (writtenChars (trimRaw raw)) ≠ [] ↔
      (writtenChars raw).any (fun c => !Batch.isSpaceRune c) = true := by
    unfold Batch.trimRunes
    rw [Ne, trimmed_eq_nil_iff, any_trimRaw, Bool.not_eq_false]
  unfold sampleText
  split
  · rename_i some_text
    rw [hasColumn_set, or_comm, and_iff_left (shown.mp some_text)]
  · rename_i blank
    rw [shown] at blank
    constructor
    · exact .inl
    · intro either
      exact either.resolve_right (fun both => blank both.2)

theorem hasColumn_takeCharData (out : Data) (text : String) (name : String) :
    HasColumn (takeCharData out text) name ↔
      HasColumn out name ∨ (name = "$text" ∧ text.toList.any (fun c => !isSpace c) = true) := by
  unfold takeCharData
  split
  · rename_i some_text
    rw [hasColumn_set, or_comm, and_iff_left ((trim_ne_empty_iff text).mp some_text)]
  · rename_i blank
    rw [trim_ne_empty_iff] at blank
    constructor
    · exact .inl
    · intro either
      exact either.resolve_right (fun both => blank both.2)

theorem child_joins (child row children text : Prop) :
    (child ∨ row) ∨ children ∨ text ↔ row ∨ (child ∨ children) ∨ text := by
  tauto

theorem text_joins (row children named here later : Prop) :
    (row ∨ named ∧ here) ∨ children ∨ named ∧ later ↔ row ∨ children ∨ named ∧ (here ∨ later) := by
  tauto

private theorem hasColumn_sampleBody (content : Content) (out : Data) (name : String) :
    HasColumn (sampleBody content out) name ↔
      HasColumn out name ∨ name ∈ childNames localName content ∨
        (name = "$text" ∧ content.hasText = true) := by
  induction content generalizing out with
  | done => simp [sampleBody, childNames, Content.hasText]
  | element child attrs body rest _ ih =>
      simp only [sampleBody, childNames, Content.hasText]
      rw [ih, hasColumn_insertFirstOnly, List.mem_cons]
      exact child_joins _ _ _ _
  | empty child attrs rest ih =>
      simp only [sampleBody, childNames, Content.hasText]
      rw [ih, hasColumn_insertFirstOnly, List.mem_cons]
      exact child_joins _ _ _ _
  | text raw rest ih =>
      simp only [sampleBody, childNames, Content.hasText]
      rw [ih, hasColumn_sampleText, Bool.or_eq_true]
      exact text_joins _ _ _ _ _
  | cdata chars rest ih => exact ih out
  | misc target rest ih => exact ih out

private theorem hasColumn_readBody (content : Content) (out : Data) (name : String) :
    HasColumn (readBody content out) name ↔
      HasColumn out name ∨ name ∈ childNames goLocalName content ∨
        (name = "$text" ∧ content.hasCharData = true) := by
  induction content generalizing out with
  | done => simp [readBody, childNames, Content.hasCharData]
  | element child attrs body rest _ ih =>
      simp only [readBody, childNames, Content.hasCharData]
      rw [ih, hasColumn_addMulti, List.mem_cons]
      exact child_joins _ _ _ _
  | empty child attrs rest ih =>
      simp only [readBody, childNames, Content.hasCharData]
      rw [ih, hasColumn_addMulti, List.mem_cons]
      exact child_joins _ _ _ _
  | text raw rest ih =>
      simp only [readBody, childNames, Content.hasCharData]
      rw [ih, hasColumn_takeCharData, String.toList_ofList, any_rewriteLines, Bool.or_eq_true]
      exact text_joins _ _ _ _ _
  | cdata chars rest ih =>
      simp only [readBody, childNames, Content.hasCharData]
      rw [ih, hasColumn_takeCharData, Bool.or_eq_true]
      exact text_joins _ _ _ _ _
  | misc target rest ih => exact ih out

def Record.sampled (record : Record) : Data :=
  sampleBody record.body (sampleAttributes record.attrs)

def Record.read (record : Record) : Data :=
  readBody record.body (attributeFields (deliveredAttributes record.attrs))

private theorem sameColumns_iff_sameNames (sampled read : Record) :
    SameColumns sampled.sampled read.read ↔ SameNames sampled read := by
  unfold SameColumns SameNames Record.sampled Record.read Record.SampledColumn Record.ReadColumn
  simp only [hasColumn_sampleBody, hasColumn_readBody, hasColumn_sampleAttributes,
    hasColumn_deliveredAttributes]

/-! ### The sampler over a document -/

def decoded (events : List XmlEvent) (out : Data) : Except String (Data × List XmlEvent) :=
  (decodeRecord events out).map (fun result => (result.1, result.2.1))

private theorem decoded_finish (rest : List XmlEvent) (out : Data) :
    decoded (.finish :: rest) out = .ok (out, rest) := by
  unfold decoded
  rw [decodeRecord]
  rfl

variable {attrs : List Attribute}

theorem decoded_start {rest after : List XmlEvent}
    {child : Data} (inner : decoded rest (sampleAttributes attrs) = .ok (child, after)) (out : Data) :
    decoded (.start name attrs :: rest) out =
      decoded after (insertFirstOnly out (localName name) (simplify child)) := by
  unfold decoded at inner ⊢
  rw [decodeRecord]
  cases result : decodeRecord rest (sampleAttributes attrs) with
  | error problem =>
      rw [result] at inner
      cases inner
  | ok read =>
      obtain ⟨built, left, shorter⟩ := read
      rw [result] at inner
      cases inner
      dsimp only
      cases decodeRecord left (insertFirstOnly out (localName name) (simplify built)) with
      | error problem => rfl
      | ok later => rfl

private theorem decoded_start_error {rest : List XmlEvent}
    {problem : String} (inner : decoded rest (sampleAttributes attrs) = .error problem) (out : Data) :
    decoded (.start name attrs :: rest) out = .error problem := by
  unfold decoded at inner ⊢
  rw [decodeRecord]
  cases result : decodeRecord rest (sampleAttributes attrs) with
  | error other =>
      rw [result] at inner
      cases inner
      rfl
  | ok read =>
      rw [result] at inner
      cases inner

theorem decoded_text {chars : List Char} (resolved : resolve raw = .ok chars)
    (rest : List XmlEvent) (out : Data) :
    decoded (.text raw :: rest) out = decoded rest (sampleText out chars) := by
  unfold decoded
  rw [decodeRecord, resolved]
  dsimp only
  cases decodeRecord rest (sampleText out chars) with
  | error problem => rfl
  | ok later => rfl

private theorem decoded_text_error {problem : String} (failed : resolve raw = .error problem)
    (rest : List XmlEvent) (out : Data) : decoded (.text raw :: rest) out = .error problem := by
  unfold decoded
  rw [decodeRecord, failed]
  rfl

theorem decoded_empty (name : String) (attrs : List Attribute) (rest : List XmlEvent) (out : Data) :
    decoded (.empty name attrs :: rest) out =
      decoded rest (insertFirstOnly out (localName name) (emptyElementValue attrs)) := by
  unfold decoded
  rw [decodeRecord]
  cases decodeRecord rest (insertFirstOnly out (localName name) (emptyElementValue attrs)) with
  | error problem => rfl
  | ok later => rfl

theorem decoded_cdata (chars : String) (rest : List XmlEvent) (out : Data) :
    decoded (.cdata chars :: rest) out = decoded rest out := by
  unfold decoded
  rw [decodeRecord]
  cases decodeRecord rest out with
  | error problem => rfl
  | ok later => rfl

theorem decoded_other (rest : List XmlEvent) (out : Data) :
    decoded (.other :: rest) out = decoded rest out := by
  unfold decoded
  rw [decodeRecord]
  cases decodeRecord rest out with
  | error problem => rfl
  | ok later => rfl

variable {content : Content}

theorem decoded_content (sampleable : content.sampleable = true) (out : Data)
    (tail : List XmlEvent) :
    decoded (quickXml content (.finish :: tail)) out = .ok (sampleBody content out, tail) := by
  induction content generalizing out tail with
  | done => exact decoded_finish tail out
  | element name attrs body rest inner ih =>
      obtain ⟨inside, behind⟩ := Bool.and_eq_true_iff.mp sampleable
      have child := inner inside (sampleAttributes attrs) (quickXml rest (.finish :: tail))
      simp only [quickXml]
      rw [decoded_start child, ih behind]
      rfl
  | empty name attrs rest ih =>
      simp only [quickXml]
      rw [decoded_empty, ih sampleable]
      rfl
  | text raw rest ih =>
      obtain ⟨here, behind⟩ := Bool.and_eq_true_iff.mp sampleable
      rw [Bool.not_eq_true', ← hasOwnEntity_trimRaw] at here
      simp only [quickXml, sampleBody]
      split
      · rename_i blank
        rw [ih behind, blank]
        rfl
      · rw [decoded_text (resolve_eq here), ih behind]
  | cdata chars rest ih =>
      simp only [quickXml]
      rw [decoded_cdata, ih sampleable]
      rfl
  | misc target rest ih =>
      simp only [quickXml]
      rw [decoded_other, ih sampleable]
      rfl

theorem decoded_refused (refused : content.sampleable = false) (out : Data)
    (tail : List XmlEvent) :
    ∃ problem, decoded (quickXml content (.finish :: tail)) out = .error problem := by
  induction content generalizing out tail with
  | done => cases refused
  | element name attrs body rest inner ih =>
      simp only [quickXml]
      cases inside : body.sampleable with
      | true =>
          rw [Content.sampleable, inside, Bool.true_and] at refused
          rw [decoded_start (decoded_content inside (sampleAttributes attrs) _)]
          exact ih refused _ tail
      | false =>
          obtain ⟨problem, failed⟩ := inner inside (sampleAttributes attrs)
            (quickXml rest (.finish :: tail))
          exact ⟨problem, decoded_start_error failed out⟩
  | empty name attrs rest ih =>
      simp only [quickXml]
      rw [decoded_empty]
      exact ih refused _ tail
  | text raw rest ih =>
      rw [Content.sampleable, ← hasOwnEntity_trimRaw] at refused
      simp only [quickXml]
      cases own : hasOwnEntity (trimRaw raw) with
      | false =>
          rw [own, Bool.not_false, Bool.true_and] at refused
          split
          · exact ih refused out tail
          · rw [decoded_text (resolve_eq own)]
            exact ih refused _ tail
      | true =>
          obtain ⟨problem, failed⟩ := resolve_error own
          rw [if_neg (fun blank => by rw [blank] at own; cases own)]
          exact ⟨problem, decoded_text_error failed _ out⟩
  | cdata chars rest ih =>
      simp only [quickXml]
      rw [decoded_cdata]
      exact ih refused out tail
  | misc target rest ih =>
      simp only [quickXml]
      rw [decoded_other]
      exact ih refused out tail

private theorem readNextRecord_record {tag name : String} (named : localName name = tag)
    {rest after : List XmlEvent} {row : Data}
    (inner : decoded rest (sampleAttributes attrs) = .ok (row, after)) :
    readNextRecord tag (.start name attrs :: rest) = .ok (some (row, after)) := by
  unfold decoded at inner
  simp only [readNextRecord, if_pos named]
  cases result : decodeRecord rest (sampleAttributes attrs) with
  | error problem =>
      rw [result] at inner
      cases inner
  | ok read =>
      rw [result] at inner
      cases inner
      rfl

private theorem readNextRecord_error {tag name : String} (named : localName name = tag)
    {rest : List XmlEvent} {problem : String}
    (inner : decoded rest (sampleAttributes attrs) = .error problem) :
    readNextRecord tag (.start name attrs :: rest) = .error problem := by
  unfold decoded at inner
  simp only [readNextRecord, if_pos named]
  cases result : decodeRecord rest (sampleAttributes attrs) with
  | error other =>
      rw [result] at inner
      cases inner
      rfl
  | ok read =>
      rw [result] at inner
      cases inner

private theorem sampleRows_skip {tag : String} {event : XmlEvent} {rest : List XmlEvent}
    (skipped : readNextRecord tag (event :: rest) = readNextRecord tag rest) (cap : Nat) :
    sampleRows tag cap (event :: rest) = sampleRows tag cap rest := by
  cases cap with
  | zero =>
      unfold sampleRows
      rw [skipped]
  | succ cap =>
      unfold sampleRows
      rw [skipped]

def sampleShown (tag : String) (cap : Nat) (events : List XmlEvent) : Option (List Data × Bool) :=
  (sampleRows tag cap events).toOption

/-- Records that come before whatever `next` samples under the cap left over. -/
def sampleAfter : List Record → Nat → (Nat → Option (List Data × Bool)) → Option (List Data × Bool)
  | [], cap, next => next cap
  | record :: _, 0, _ => if record.body.sampleable = true then some ([], true) else none
  | record :: more, cap + 1, next =>
      if record.body.sampleable = true then
        (sampleAfter more cap next).map (fun result => (record.sampled :: result.1, result.2))
      else none

theorem sampleAfter_append (first second : List Record) (cap : Nat)
    (next : Nat → Option (List Data × Bool)) :
    sampleAfter (first ++ second) cap next =
      sampleAfter first cap (fun left => sampleAfter second left next) := by
  induction first generalizing cap with
  | nil => rfl
  | cons record more ih =>
      cases cap with
      | zero => rfl
      | succ cap =>
          simp only [List.cons_append, sampleAfter]
          rw [ih cap]

theorem sampleShown_skip {tag : String} {event : XmlEvent} {rest : List XmlEvent}
    (skipped : readNextRecord tag (event :: rest) = readNextRecord tag rest) (cap : Nat) :
    sampleShown tag cap (event :: rest) = sampleShown tag cap rest := by
  unfold sampleShown
  rw [sampleRows_skip skipped]

theorem sampleShown_record {tag name : String} (named : localName name = tag)
    (attrs : List Attribute) (body : Content) (after : List XmlEvent) (cap : Nat) :
    sampleShown tag cap (.start name attrs :: quickXml body (.finish :: after)) =
      sampleAfter [.element attrs body] cap (fun left => sampleShown tag left after) := by
  unfold sampleShown
  cases sampleable : body.sampleable with
  | true =>
      have read := readNextRecord_record named
        (decoded_content sampleable (sampleAttributes attrs) after)
      cases cap with
      | zero =>
          rw [sampleRows, read]
          simp only [sampleAfter, Record.body, sampleable, if_true]
          rfl
      | succ cap =>
          rw [sampleRows, read]
          simp only [sampleAfter, Record.body, sampleable, if_true]
          cases sampleRows tag cap after with
          | error problem => rfl
          | ok rows => rfl
  | false =>
      obtain ⟨problem, failed⟩ := decoded_refused sampleable (sampleAttributes attrs) after
      have refused := readNextRecord_error named failed
      cases cap with
      | zero =>
          rw [sampleRows, refused]
          simp only [sampleAfter, Record.body, sampleable, Bool.false_eq_true, if_false]
          rfl
      | succ cap =>
          rw [sampleRows, refused]
          simp only [sampleAfter, Record.body, sampleable, Bool.false_eq_true, if_false]
          rfl

theorem sampleShown_content (tag : String) (content : Content) (tail : List XmlEvent) (cap : Nat) :
    sampleShown tag cap (quickXml content tail) =
      sampleAfter (sampledElements tag content) cap (fun left => sampleShown tag left tail) := by
  induction content generalizing tail cap with
  | done => rfl
  | element name attrs body rest inner ih =>
      by_cases named : localName name = tag
      · have split : sampledElements tag (.element name attrs body rest) =
            [.element attrs body] ++ sampledElements tag rest := by
          simp only [sampledElements, records, if_pos named]
          rfl
        rw [split, sampleAfter_append]
        simp only [quickXml]
        rw [sampleShown_record named]
        congr 1
        funext left
        exact ih tail left
      · have skipped : ∀ events, readNextRecord tag (.start name attrs :: events) =
            readNextRecord tag events := fun events => by
          simp only [readNextRecord, if_neg named]
        have split : sampledElements tag (.element name attrs body rest) =
            sampledElements tag body ++ sampledElements tag rest := by
          simp only [sampledElements, records, if_neg named, List.filter_append]
        rw [split, sampleAfter_append]
        simp only [quickXml]
        rw [sampleShown_skip (skipped _), inner]
        congr 1
        funext left
        rw [sampleShown_skip rfl, ih]
  | empty name attrs rest ih =>
      have passed : sampledElements tag (.empty name attrs rest) = sampledElements tag rest := by
        simp only [sampledElements, records]
        split
        · rfl
        · rfl
      simp only [quickXml]
      rw [sampleShown_skip rfl, ih, passed]
  | text raw rest ih =>
      simp only [quickXml]
      split
      · exact ih tail cap
      · rw [sampleShown_skip rfl]
        exact ih tail cap
  | cdata chars rest ih =>
      simp only [quickXml]
      rw [sampleShown_skip rfl]
      exact ih tail cap
  | misc target rest ih =>
      simp only [quickXml]
      rw [sampleShown_skip rfl]
      exact ih tail cap

def allSampleable (shown : List Record) (cap : Nat) : Bool :=
  (shown.take (cap + 1)).all (fun record => record.body.sampleable)

private theorem sampleAfter_end (tag : String) {shown : List Record} {cap : Nat}
    (sampleable : allSampleable shown cap = true) :
    ∃ more, sampleAfter shown cap (fun left => sampleShown tag left []) =
      some ((shown.take cap).map Record.sampled, more) := by
  induction shown generalizing cap with
  | nil =>
      refine ⟨false, ?_⟩
      rw [List.take_nil]
      cases cap with
      | zero => rfl
      | succ cap => rfl
  | cons record rest ih =>
      obtain ⟨here, behind⟩ := Bool.and_eq_true_iff.mp sampleable
      cases cap with
      | zero =>
          refine ⟨true, ?_⟩
          rw [sampleAfter, if_pos here]
          rfl
      | succ cap =>
          obtain ⟨more, sampled⟩ := ih behind
          refine ⟨more, ?_⟩
          rw [sampleAfter, if_pos here, sampled]
          rfl

theorem sampleAfter_refused (tag : String) {shown : List Record} {cap : Nat}
    (refused : allSampleable shown cap = false) :
    sampleAfter shown cap (fun left => sampleShown tag left []) = none := by
  induction shown generalizing cap with
  | nil => cases refused
  | cons record rest ih =>
      cases here : record.body.sampleable with
      | false =>
          cases cap with
          | zero =>
              rw [sampleAfter, here]
              rfl
          | succ cap =>
              rw [sampleAfter, here]
              rfl
      | true =>
          cases cap with
          | zero =>
              unfold allSampleable at refused
              simp [here] at refused
          | succ cap =>
              have behind : allSampleable rest cap = false := by
                unfold allSampleable at refused ⊢
                rw [List.take_succ_cons, List.all_cons, here, Bool.true_and] at refused
                exact refused
              rw [sampleAfter, if_pos here, ih behind]
              rfl

theorem sampledRows_eq (doc : Document) (tag : String) (cap : Nat) :
    sampledRows (sampleXml doc cap tag) =
      if allSampleable (sampledElements (recordTag tag) doc.content) cap = true then
        ((sampledElements (recordTag tag) doc.content).take cap).map Record.sampled
      else [] := by
  have events : sampleShown (recordTag tag) cap (sampleEvents doc) =
      sampleAfter (sampledElements (recordTag tag) doc.content) cap
        (fun left => sampleShown (recordTag tag) left []) := by
    rw [← sampleShown_content]
    unfold sampleEvents
    cases doc.declaration with
    | none => rfl
    | some declaration => exact sampleShown_skip rfl cap
  unfold sampleXml
  dsimp only
  unfold sampleShown at events
  cases sampleable : allSampleable (sampledElements (recordTag tag) doc.content) cap with
  | true =>
      obtain ⟨more, rows⟩ := sampleAfter_end (recordTag tag) sampleable
      unfold sampleShown at rows
      rw [rows] at events
      cases result : sampleRows (recordTag tag) cap (sampleEvents doc) with
      | error problem =>
          rw [result] at events
          cases events
      | ok found =>
          rw [result] at events
          have same : found.1 =
              ((sampledElements (recordTag tag) doc.content).take cap).map Record.sampled :=
            congrArg Prod.fst (Option.some.inj events)
          rw [if_pos rfl, ← same]
          obtain ⟨shown, flag⟩ := found
          cases shown with
          | nil => rfl
          | cons row later => rfl
  | false =>
      have refused := sampleAfter_refused (recordTag tag) sampleable
      unfold sampleShown at refused
      rw [refused] at events
      cases result : sampleRows (recordTag tag) cap (sampleEvents doc) with
      | error problem => rfl
      | ok found =>
          rw [result] at events
          cases events

/-! ### The connector over a document -/

section Decoder

variable {isName : String → Bool}

theorem readText_eq (own : hasOwnEntity raw = false) :
    readText raw = .ok (String.ofList (writtenChars (rewriteLines false raw))) := by
  unfold readText
  rw [resolve_eq ((hasOwnEntity_rewriteLines raw false).trans own)]
  rfl

theorem readText_error (own : hasOwnEntity raw = true) :
    ∃ problem, readText raw = .error problem := by
  obtain ⟨problem, failed⟩ := resolve_error ((hasOwnEntity_rewriteLines raw false).trans own)
  refine ⟨problem, ?_⟩
  unfold readText
  rw [failed]
  rfl

theorem nsname_eq (named : goName isName name = true) (problem : String) :
    nsname isName problem name = .ok (goLocalName name) := by
  obtain ⟨inTable, colons⟩ := Bool.and_eq_true_iff.mp named
  unfold nsname
  rw [inTable, if_neg Bool.noConfusion, if_neg (Nat.not_lt.mpr (of_decide_eq_true colons))]

theorem nsname_error (unnamed : goName isName name = false) (problem : String) :
    ∃ message, nsname isName problem name = .error message := by
  unfold nsname
  cases inTable : isName name with
  | false => exact ⟨_, rfl⟩
  | true =>
      unfold goName at unnamed
      rw [inTable, Bool.true_and, decide_eq_false_iff_not, Nat.not_le] at unnamed
      rw [if_neg Bool.noConfusion, if_pos unnamed]
      exact ⟨_, rfl⟩

theorem readAttributes_eq
    (taken : attrs.all (fun attr => goName isName attr.name && !hasOwnEntity attr.value) = true) :
    readAttributes isName attrs = .ok (deliveredAttributes attrs) := by
  induction attrs with
  | nil => rfl
  | cons attr rest ih =>
      rw [List.all_cons, Bool.and_eq_true, Bool.and_eq_true, Bool.not_eq_true'] at taken
      obtain ⟨⟨named, own⟩, later⟩ := taken
      unfold readAttributes
      rw [nsname_eq named, readText_eq own, ih later]
      rfl

theorem readAttributes_error
    (failing : attrs.all (fun attr => goName isName attr.name && !hasOwnEntity attr.value) = false) :
    ∃ problem, readAttributes isName attrs = .error problem := by
  induction attrs with
  | nil => cases failing
  | cons attr rest ih =>
      unfold readAttributes
      cases named : goName isName attr.name with
      | false =>
          obtain ⟨message, refused⟩ := nsname_error named "expected attribute name in element"
          rw [refused]
          exact ⟨_, rfl⟩
      | true =>
          rw [nsname_eq named]
          cases own : hasOwnEntity attr.value with
          | true =>
              obtain ⟨problem, refused⟩ := readText_error own
              rw [refused]
              exact ⟨_, rfl⟩
          | false =>
              rw [List.all_cons, named, own] at failing
              obtain ⟨problem, refused⟩ := ih failing
              rw [readText_eq own, refused]
              exact ⟨_, rfl⟩

theorem startToken_eq (taken : goStart isName name attrs = true) :
    startToken isName name attrs =
      .ok (.startElement (goLocalName name) (deliveredAttributes attrs)) := by
  obtain ⟨named, attributes⟩ := Bool.and_eq_true_iff.mp taken
  unfold startToken
  rw [nsname_eq named, readAttributes_eq attributes]
  rfl

theorem startToken_error (failing : goStart isName name attrs = false) :
    ∃ problem, startToken isName name attrs = .error problem := by
  unfold startToken
  cases named : goName isName name with
  | false =>
      obtain ⟨message, refused⟩ := nsname_error named "expected element name after <"
      rw [refused]
      exact ⟨_, rfl⟩
  | true =>
      unfold goStart at failing
      rw [named, Bool.true_and] at failing
      obtain ⟨problem, refused⟩ := readAttributes_error failing
      rw [nsname_eq named, refused]
      exact ⟨_, rfl⟩

theorem miscToken_eq {target : Option String} (taken : target.all isName = true) :
    miscToken isName target = .ok .other := by
  cases target with
  | none => rfl
  | some name => exact if_pos taken

theorem miscToken_error {target : Option String} (failing : target.all isName = false) :
    ∃ problem, miscToken isName target = .error problem := by
  cases target with
  | none => cases failing
  | some name => exact ⟨_, if_neg (Bool.eq_false_iff.mp failing)⟩

theorem charData_eq (own : hasOwnEntity raw = false) :
    (readText raw).map XmlToken.charData =
      .ok (.charData (String.ofList (writtenChars (rewriteLines false raw)))) := by
  rw [readText_eq own]
  rfl

theorem charData_error (own : hasOwnEntity raw = true) :
    ∃ problem, (readText raw).map XmlToken.charData = .error problem := by
  obtain ⟨problem, failed⟩ := readText_error own
  exact ⟨problem, by rw [failed]; rfl⟩

/-! Nothing is delivered from an error on. -/

theorem delivered_error {stream : List (Except String XmlToken)} {token : Except String XmlToken}
    (failing : ∃ problem, token = .error problem) : (delivered (token :: stream)).tokens = [] := by
  obtain ⟨problem, rfl⟩ := failing
  rfl

theorem delivered_token {stream : List (Except String XmlToken)} {token : Except String XmlToken}
    {given : XmlToken} (taken : token = .ok given) :
    (delivered (token :: stream)).tokens = given :: (delivered stream).tokens := by
  rw [taken]
  rfl

def elementDecoded (given : List XmlToken) (out : Data) : Option (Data × List XmlToken) :=
  (decodeElement given out).map (fun result => (result.1, result.2.1))

theorem elementDecoded_end (rest : List XmlToken) (out : Data) :
    elementDecoded (.endElement :: rest) out = some (out, rest) := by
  unfold elementDecoded
  rw [decodeElement]
  rfl

theorem elementDecoded_nil (out : Data) : elementDecoded [] out = none := by
  unfold elementDecoded
  rw [decodeElement]
  rfl

private theorem elementDecoded_start_none {attrs : List (String × String)}
    {rest : List XmlToken} (inner : elementDecoded rest (attributeFields attrs) = none) (out : Data) :
    elementDecoded (.startElement name attrs :: rest) out = none := by
  unfold elementDecoded at inner ⊢
  rw [decodeElement]
  rw [Option.map_eq_none_iff] at inner
  rw [inner]
  rfl

theorem elementDecoded_start {attrs : List (String × String)}
    {rest after : List XmlToken} {child : Data}
    (inner : elementDecoded rest (attributeFields attrs) = some (child, after)) (out : Data) :
    elementDecoded (.startElement name attrs :: rest) out =
      elementDecoded after (addMulti out name (simplify child)) := by
  unfold elementDecoded at inner ⊢
  rw [decodeElement]
  cases result : decodeElement rest (attributeFields attrs) with
  | none =>
      rw [result] at inner
      cases inner
  | some read =>
      obtain ⟨built, left, shorter⟩ := read
      rw [result] at inner
      cases inner
      dsimp only
      cases decodeElement left (addMulti out name (simplify built)) with
      | none => rfl
      | some later => rfl

theorem elementDecoded_charData (text : String) (rest : List XmlToken) (out : Data) :
    elementDecoded (.charData text :: rest) out = elementDecoded rest (takeCharData out text) := by
  unfold elementDecoded takeCharData
  rw [decodeElement]
  cases decodeElement rest (if trim text ≠ "" then out.set "$text" (.text text) else out) with
  | none => rfl
  | some later => rfl

theorem elementDecoded_other (rest : List XmlToken) (out : Data) :
    elementDecoded (.other :: rest) out = elementDecoded rest out := by
  unfold elementDecoded
  rw [decodeElement]
  cases decodeElement rest out with
  | none => rfl
  | some later => rfl

theorem elementDecoded_content (decodable : content.decodable isName = true)
    (out : Data) (tail : List (Except String XmlToken)) :
    elementDecoded (delivered (goTokens isName content (.ok .endElement :: tail))).tokens out =
      some (readBody content out, (delivered tail).tokens) := by
  induction content generalizing out tail with
  | done => exact elementDecoded_end _ out
  | element name attrs body rest inner ih =>
      rw [Content.decodable, Bool.and_eq_true, Bool.and_eq_true] at decodable
      obtain ⟨⟨started, inside⟩, behind⟩ := decodable
      simp only [goTokens]
      rw [delivered_token (startToken_eq started), elementDecoded_start (inner inside _ _), ih behind]
      rfl
  | empty name attrs rest ih =>
      obtain ⟨started, behind⟩ := Bool.and_eq_true_iff.mp decodable
      simp only [goTokens]
      rw [delivered_token (startToken_eq started), delivered_token rfl,
        elementDecoded_start (elementDecoded_end _ _), ih behind]
      rfl
  | text raw rest ih =>
      obtain ⟨here, behind⟩ := Bool.and_eq_true_iff.mp decodable
      simp only [goTokens]
      rw [delivered_token (charData_eq ((Bool.not_eq_true' _).mp here)), elementDecoded_charData,
        ih behind]
      rfl
  | cdata chars rest ih =>
      simp only [goTokens]
      rw [delivered_token rfl, elementDecoded_charData, ih decodable]
      rfl
  | misc target rest ih =>
      obtain ⟨here, behind⟩ := Bool.and_eq_true_iff.mp decodable
      simp only [goTokens]
      rw [delivered_token (miscToken_eq here), elementDecoded_other, ih behind]
      rfl

theorem elementDecoded_failing (failing : content.decodable isName = false)
    (out : Data) (tail : List (Except String XmlToken)) :
    elementDecoded (delivered (goTokens isName content (.ok .endElement :: tail))).tokens out =
      none := by
  induction content generalizing out tail with
  | done => cases failing
  | element name attrs body rest inner ih =>
      simp only [goTokens]
      rcases Bool.eq_false_or_eq_true (goStart isName name attrs) with started | refused
      · rw [delivered_token (startToken_eq started)]
        rcases Bool.eq_false_or_eq_true (body.decodable isName) with inside | inside
        · rw [Content.decodable, started, inside, Bool.true_and] at failing
          rw [elementDecoded_start (elementDecoded_content inside _ _)]
          exact ih failing _ tail
        · exact elementDecoded_start_none (inner inside _ _) out
      · rw [delivered_error (startToken_error refused), elementDecoded_nil]
  | empty name attrs rest ih =>
      simp only [goTokens]
      rcases Bool.eq_false_or_eq_true (goStart isName name attrs) with started | refused
      · rw [Content.decodable, started, Bool.true_and] at failing
        rw [delivered_token (startToken_eq started), delivered_token rfl,
          elementDecoded_start (elementDecoded_end _ _)]
        exact ih failing _ tail
      · rw [delivered_error (startToken_error refused), elementDecoded_nil]
  | text raw rest ih =>
      simp only [goTokens]
      rcases Bool.eq_false_or_eq_true (hasOwnEntity raw) with own | plain
      · rw [delivered_error (charData_error own), elementDecoded_nil]
      · rw [Content.decodable, plain, Bool.not_false, Bool.true_and] at failing
        rw [delivered_token (charData_eq plain), elementDecoded_charData]
        exact ih failing _ tail
  | cdata chars rest ih =>
      simp only [goTokens]
      rw [delivered_token rfl, elementDecoded_charData]
      exact ih failing _ tail
  | misc target rest ih =>
      simp only [goTokens]
      rcases Bool.eq_false_or_eq_true (target.all isName) with taken | refused
      · rw [Content.decodable, taken, Bool.true_and] at failing
        rw [delivered_token (miscToken_eq taken), elementDecoded_other]
        exact ih failing out tail
      · rw [delivered_error (miscToken_error refused), elementDecoded_nil]

def nextRecord (tag : String) : List XmlToken → Option (Data × List XmlToken)
  | [] => none
  | .startElement name attrs :: rest =>
      if name ≠ tag then nextRecord tag rest else elementDecoded rest (attributeFields attrs)
  | _ :: rest => nextRecord tag rest

def NextResult.asRecord : NextResult XmlIter → Option (Data × XmlIter)
  | .row row _ later => some (row.data, later)
  | .done _ => none
  | .failed _ _ => none

private theorem xmlNextFrom_record (it : XmlIter) (given : List XmlToken) :
    NextResult.asRecord (xmlNextFrom it given) =
      (nextRecord it.tag given).map (fun found =>
        (found.1, { it with dec := { it.dec with tokens := found.2 }, idx := it.idx + 1 })) := by
  induction given with
  | nil =>
      unfold xmlNextFrom
      cases it.dec.err with
      | none => rfl
      | some message => rfl
  | cons token rest ih =>
      cases token with
      | endElement => exact ih
      | charData text => exact ih
      | other => exact ih
      | startElement name attrs =>
          unfold xmlNextFrom nextRecord
          split
          · exact ih
          · unfold elementDecoded
            cases decodeElement rest (attributeFields attrs) with
            | none => rfl
            | some found => rfl

def recordsFrom (tag : String) : Nat → List XmlToken → List Data
  | 0, _ => []
  | cap + 1, given =>
      match nextRecord tag given with
      | none => []
      | some (row, after) => row :: recordsFrom tag cap after

def NextResult.asStep : NextResult XmlIter → ResumableIteration.Step XmlIter Row IngestError
  | .row row _ later => .row row later
  | .done _ => .done
  | .failed _ err => .failed err.ingestError

theorem step_of_next {tag : String} {content : XmlContent} {it : XmlIter}
    {result : NextResult XmlIter} (returned : xmlNext it = result) :
    (xmlConnector tag content).toConnector.step it = NextResult.asStep result := by
  have next : (xmlConnector tag content).toConnector.next it = result := returned
  unfold Connector.step
  rw [next]
  cases result with
  | row row offset later => rfl
  | done offset => rfl
  | failed offset err => rfl

theorem take_records (tag : String) (content : XmlContent) (cap : Nat) (it : XmlIter) :
    (take (xmlConnector tag content).toConnector.step cap it).1.map Row.data =
      recordsFrom it.tag cap it.dec.tokens := by
  induction cap generalizing it with
  | zero => rfl
  | succ cap ih =>
      have found := xmlNextFrom_record it it.dec.tokens
      unfold recordsFrom
      cases result : xmlNextFrom it it.dec.tokens with
      | done offset =>
          rw [result] at found
          rw [ResumableIteration.take_done cap (step_of_next result)]
          cases next : nextRecord it.tag it.dec.tokens with
          | none => rfl
          | some pair =>
              rw [next] at found
              cases found
      | failed offset err =>
          rw [result] at found
          rw [ResumableIteration.take_failed cap (step_of_next result)]
          cases next : nextRecord it.tag it.dec.tokens with
          | none => rfl
          | some pair =>
              rw [next] at found
              cases found
      | row row offset later =>
          rw [result] at found
          rw [take_row cap (step_of_next result)]
          cases next : nextRecord it.tag it.dec.tokens with
          | none =>
              rw [next] at found
              cases found
          | some pair =>
              rw [next] at found
              obtain ⟨sameRow, sameIter⟩ := Prod.mk.inj (Option.some.inj found)
              rw [List.map_cons, ih, sameRow, sameIter]

theorem recordsFrom_skip {tag : String} {token : XmlToken} {rest : List XmlToken}
    (skipped : nextRecord tag (token :: rest) = nextRecord tag rest) (cap : Nat) :
    recordsFrom tag cap (token :: rest) = recordsFrom tag cap rest := by
  cases cap with
  | zero => rfl
  | succ cap =>
      unfold recordsFrom
      rw [skipped]

/-- Records that come before whatever `next` reads under the cap left over. -/
def readAfter : List (Option Record) → Nat → (Nat → List Data) → List Data
  | [], cap, next => next cap
  | none :: _, _, _ => []
  | some _ :: _, 0, _ => []
  | some record :: more, cap + 1, next => record.read :: readAfter more cap next

private theorem readAfter_append (first second : List (Option Record)) (cap : Nat)
    (next : Nat → List Data) :
    readAfter (first ++ second) cap next =
      readAfter first cap (fun left => readAfter second left next) := by
  induction first generalizing cap with
  | nil => rfl
  | cons found more ih =>
      cases found with
      | none => rfl
      | some record =>
          cases cap with
          | zero => rfl
          | succ cap =>
              simp only [List.cons_append, readAfter]
              rw [ih cap]

private theorem readAfter_end (found : List (Option Record)) (cap : Nat) :
    readAfter found cap (fun _ => []) = ((beforeFailure found).map Record.read).take cap := by
  induction found generalizing cap with
  | nil =>
      change [] = ([] : List Data).take cap
      rw [List.take_nil]
  | cons head rest ih =>
      cases head with
      | none =>
          change [] = ([] : List Data).take cap
          rw [List.take_nil]
      | some record =>
          cases cap with
          | zero => rfl
          | succ cap =>
              simp only [readAfter, beforeFailure, List.map_cons, List.take_succ_cons]
              rw [ih cap]

theorem recordsFrom_nil (tag : String) (cap : Nat) : recordsFrom tag cap [] = [] := by
  cases cap with
  | zero => rfl
  | succ cap => rfl

theorem readAfter_failure (cap : Nat) (next : Nat → List Data) : readAfter [none] cap next = [] := by
  cases cap with
  | zero => rfl
  | succ cap => rfl

private theorem recordsFrom_none {tag name : String} (named : name = tag)
    {attrs : List (String × String)} {rest : List XmlToken}
    (inner : elementDecoded rest (attributeFields attrs) = none) (cap : Nat) :
    recordsFrom tag cap (.startElement name attrs :: rest) = [] := by
  have found : nextRecord tag (.startElement name attrs :: rest) = none := by
    simp only [nextRecord, named, ne_eq, not_true_eq_false, if_false]
    exact inner
  cases cap with
  | zero => rfl
  | succ cap => rw [recordsFrom, found]

theorem recordsFrom_record {tag name : String} (named : name = tag)
    {attrs : List (String × String)} {rest after : List XmlToken} {row : Data}
    (inner : elementDecoded rest (attributeFields attrs) = some (row, after)) (cap : Nat) :
    recordsFrom tag (cap + 1) (.startElement name attrs :: rest) =
      row :: recordsFrom tag cap after := by
  have found : nextRecord tag (.startElement name attrs :: rest) = some (row, after) := by
    simp only [nextRecord, named, ne_eq, not_true_eq_false, if_false]
    exact inner
  rw [recordsFrom, found]

theorem recordsFrom_content (tag : String) (content : Content)
    (tail : List (Except String XmlToken)) (cap : Nat) :
    recordsFrom tag cap (delivered (goTokens isName content tail)).tokens =
      readAfter (decoderRecords isName tag content) cap
        (fun left => recordsFrom tag left (delivered tail).tokens) := by
  induction content generalizing tail cap with
  | done => rfl
  | element name attrs body rest inner ih =>
      simp only [goTokens, decoderRecords]
      rcases Bool.eq_false_or_eq_true (goStart isName name attrs) with started | refused
      · rw [delivered_token (startToken_eq started), if_pos started]
        by_cases named : goLocalName name = tag
        · rw [if_pos named]
          rcases Bool.eq_false_or_eq_true (body.decodable isName) with inside | inside
          · rw [if_pos inside]
            cases cap with
            | zero => rfl
            | succ cap =>
                rw [recordsFrom_record named (elementDecoded_content inside _ _), ih]
                rfl
          · rw [if_neg (Bool.eq_false_iff.mp inside),
              recordsFrom_none named (elementDecoded_failing inside _ _)]
            cases cap with
            | zero => rfl
            | succ cap => rfl
        · have skipped : ∀ given, nextRecord tag
              (.startElement (goLocalName name) (deliveredAttributes attrs) :: given) =
                nextRecord tag given := fun given => by
            simp only [nextRecord, ne_eq, named, not_false_eq_true, if_true]
          rw [if_neg named, recordsFrom_skip (skipped _), inner, readAfter_append]
          congr 1
          funext left
          rw [delivered_token rfl, recordsFrom_skip rfl, ih]
      · rw [delivered_error (startToken_error refused), recordsFrom_nil,
          if_neg (Bool.eq_false_iff.mp refused), readAfter_failure]
  | empty name attrs rest ih =>
      simp only [goTokens, decoderRecords]
      rcases Bool.eq_false_or_eq_true (goStart isName name attrs) with started | refused
      · rw [delivered_token (startToken_eq started), delivered_token rfl, if_pos started]
        by_cases named : goLocalName name = tag
        · rw [if_pos named]
          cases cap with
          | zero => rfl
          | succ cap =>
              rw [recordsFrom_record named (elementDecoded_end _ _), ih]
              rfl
        · have skipped : ∀ given, nextRecord tag
              (.startElement (goLocalName name) (deliveredAttributes attrs) :: given) =
                nextRecord tag given := fun given => by
            simp only [nextRecord, ne_eq, named, not_false_eq_true, if_true]
          rw [if_neg named, recordsFrom_skip (skipped _), recordsFrom_skip rfl, ih]
      · rw [delivered_error (startToken_error refused), recordsFrom_nil,
          if_neg (Bool.eq_false_iff.mp refused), readAfter_failure]
  | text raw rest ih =>
      simp only [goTokens, decoderRecords]
      rcases Bool.eq_false_or_eq_true (hasOwnEntity raw) with own | plain
      · rw [delivered_error (charData_error own), recordsFrom_nil, if_pos own, readAfter_failure]
      · rw [delivered_token (charData_eq plain), recordsFrom_skip rfl, ih,
          if_neg (Bool.eq_false_iff.mp plain)]
  | cdata chars rest ih =>
      simp only [goTokens, decoderRecords]
      rw [delivered_token rfl, recordsFrom_skip rfl, ih]
  | misc target rest ih =>
      simp only [goTokens, decoderRecords]
      rcases Bool.eq_false_or_eq_true (target.all isName) with taken | refused
      · rw [delivered_token (miscToken_eq taken), recordsFrom_skip rfl, ih, if_pos taken]
      · rw [delivered_error (miscToken_error refused), recordsFrom_nil,
          if_neg (Bool.eq_false_iff.mp refused), readAfter_failure]

private theorem connectorRows_records (doc : Document) (tag : String) (cap : Nat) :
    connectorRows isName doc tag cap =
      recordsFrom (recordTag tag) cap (goContent isName doc).tokens := by
  exact take_records tag (goContent isName doc) cap
    { dec := goContent isName doc, tag := recordTag tag }

theorem declarationToken_cases (content : String) :
    declarationToken content = .ok .other ∨ ∃ problem, declarationToken content = .error problem := by
  unfold declarationToken
  dsimp only
  split
  · exact .inr ⟨_, rfl⟩
  · split
    · exact .inr ⟨_, rfl⟩
    · exact .inl rfl

theorem connectorRows_eq (doc : Document) (tag : String) (cap : Nat) :
    connectorRows isName doc tag cap =
      ((deliveredRecords isName (recordTag tag) doc).map Record.read).take cap := by
  have rows : recordsFrom (recordTag tag) cap (delivered (goTokens isName doc.content [])).tokens =
      ((beforeFailure (decoderRecords isName (recordTag tag) doc.content)).map Record.read).take
        cap := by
    rw [recordsFrom_content, ← readAfter_end]
    congr 1
    funext left
    exact recordsFrom_nil _ left
  rw [connectorRows_records]
  unfold goContent deliveredRecords
  cases declared : doc.declaration with
  | none =>
      have supported : doc.supported = true := by
        unfold Document.supported
        rw [declared]
      rw [if_pos supported]
      exact rows
  | some content =>
      have declares : doc.supported = (declarationToken content).toBool := by
        unfold Document.supported
        rw [declared]
      dsimp only
      rcases declarationToken_cases content with taken | ⟨problem, failed⟩
      · rw [taken] at declares
        have supported : doc.supported = true := declares
        rw [if_pos supported, taken, delivered_token rfl, recordsFrom_skip rfl]
        exact rows
      · rw [failed] at declares
        have unsupported : doc.supported = false := declares
        rw [if_neg (Bool.eq_false_iff.mp unsupported), failed, delivered_error ⟨problem, rfl⟩,
          recordsFrom_nil]
        exact List.take_nil.symm

end Decoder

/-! ### Both readers -/

section Pairing

variable {Left Right : Type}

private theorem forall₂_nil_left {Same : Left → Right → Prop} {right : List Right}
    (same : List.Forall₂ Same [] right) : right = [] := by
  cases same
  rfl

theorem forall₂_capped_iff {Item Other : Type} {Same : Left → Right → Prop} (allowed : Item → Bool)
    (left : Item → Left) (right : Other → Right) (shown : List Item) (read : List Other) :
    (∀ cap, List.Forall₂ Same
        (if (shown.take (cap + 1)).all allowed = true then (shown.take cap).map left else [])
        ((read.map right).take cap)) ↔
      ((∀ item ∈ shown, allowed item = true) ∧
          List.Forall₂ (fun item other => Same (left item) (right other)) shown read) ∨
        (read = [] ∧ ∃ item ∈ shown.take 2, allowed item = false) := by
  constructor
  · intro all
    by_cases whole : ∀ item ∈ shown, allowed item = true
    · left
      have longest := all (shown.length + read.length)
      rw [if_pos (List.all_eq_true.mpr (fun item member => whole item (List.mem_of_mem_take member))),
        List.take_of_length_le (by omega),
        List.take_of_length_le (by rw [List.length_map]; omega)] at longest
      rw [List.forall₂_map_left_iff, List.forall₂_map_right_iff] at longest
      exact ⟨whole, longest⟩
    · right
      have refused : ¬ (shown.all allowed = true) := fun taken => whole (List.all_eq_true.mp taken)
      have longest := all (shown.length + 1)
      rw [List.take_of_length_le (by omega), if_neg refused] at longest
      have none_read : read = [] := by
        have cut := forall₂_nil_left longest
        cases read with
        | nil => rfl
        | cons other rest => cases cut
      refine ⟨none_read, ?_⟩
      by_cases early : (shown.take 2).all allowed = true
      · have first := all 1
        rw [if_pos early, none_read] at first
        have none_shown := List.forall₂_nil_right_iff.mp first
        cases shown with
        | nil => exact absurd rfl refused
        | cons item rest => cases none_shown
      · rw [Bool.not_eq_true, List.all_eq_false] at early
        obtain ⟨item, member, different⟩ := early
        exact ⟨item, member, Bool.eq_false_iff.mpr different⟩
  · rintro (⟨whole, same⟩ | ⟨none_read, item, member, refused⟩) cap
    · rw [if_pos (List.all_eq_true.mpr
        (fun item member => whole item (List.mem_of_mem_take member))), ← List.map_take]
      rw [List.forall₂_map_left_iff, List.forall₂_map_right_iff]
      exact List.forall₂_take cap same
    · rw [none_read, List.map_nil, List.take_nil]
      cases cap with
      | zero =>
          rw [List.take_zero, List.map_nil, ite_self]
          exact .nil
      | succ cap =>
          have inside : item ∈ shown.take (cap + 1 + 1) :=
            (List.take_prefix_take_left (by omega)).mem member
          rw [if_neg]
          · exact .nil
          · intro taken
            rw [List.all_eq_true.mp taken item inside] at refused
            cases refused

private theorem forall₂_filter_iff {Item : Type} {Same : Item → Item → Prop} (kept : Item → Bool)
    (items : List Item) :
    List.Forall₂ Same (items.filter kept) items ↔
      ∀ item ∈ items, kept item = true ∧ Same item item := by
  constructor
  · intro same
    have whole := List.length_filter_eq_length_iff.mp same.length_eq
    rw [List.filter_eq_self.mpr whole, List.forall₂_same] at same
    exact fun item member => ⟨whole item member, same item member⟩
  · intro all
    rw [List.filter_eq_self.mpr (fun item member => (all item member).1), List.forall₂_same]
    exact fun item member => (all item member).2

end Pairing

theorem mirrors_iff (isName : String → Bool) (doc : Document) (tag : String) :
    Mirrors isName doc tag ↔ RecordsAlike isName doc tag := by
  have capped := @forall₂_capped_iff Data Data Record Record SameColumns
    (fun record => record.body.sampleable) Record.sampled Record.read
    (sampledElements (recordTag tag) doc.content) (deliveredRecords isName (recordTag tag) doc)
  simp only [sameColumns_iff_sameNames] at capped
  unfold Mirrors RecordsAlike
  rw [← capped]
  apply forall_congr'
  intro cap
  rw [sampledRows_eq, connectorRows_eq]
  rfl

/-! ### Plain documents -/

section Plain

variable {isName : String → Bool}

theorem goName_of_plain (proper : NamespaceName name) (named : isName name = true) :
    goName isName name = true := by
  unfold goName
  rw [named, decide_eq_true (count_colon proper)]
  rfl

theorem attributes_of_plain (regular : ∀ attr ∈ attrs, attr.Regular)
    (named : ∀ attr ∈ attrs, isName attr.name = true) :
    attrs.all (fun attr => goName isName attr.name && !hasOwnEntity attr.value) = true := by
  rw [List.all_eq_true]
  intro attr member
  rw [goName_of_plain (regular attr member).1 (named attr member),
    hasOwnEntity_eq_false (regular attr member).2]
  rfl

theorem goStart_of_plain (proper : NamespaceName name)
    (named : isName name = true) (regular : ∀ attr ∈ attrs, attr.Regular)
    (attributes : ∀ attr ∈ attrs, isName attr.name = true) : goStart isName name attrs = true := by
  unfold goStart
  rw [goName_of_plain proper named, attributes_of_plain regular attributes]
  rfl

theorem decodable_of_plain (regular : content.Regular)
    (named : content.Named isName) : content.decodable isName = true := by
  induction content with
  | done => rfl
  | element name attrs body rest inner ih =>
      obtain ⟨proper, attributes, inside, behind⟩ := regular
      obtain ⟨inTable, attributesNamed, insideNamed, behindNamed⟩ := named
      rw [Content.decodable, goStart_of_plain proper inTable attributes attributesNamed,
        inner inside insideNamed, ih behind behindNamed]
      rfl
  | empty name attrs rest ih =>
      obtain ⟨proper, attributes, behind⟩ := regular
      obtain ⟨inTable, attributesNamed, behindNamed⟩ := named
      rw [Content.decodable, goStart_of_plain proper inTable attributes attributesNamed,
        ih behind behindNamed]
      rfl
  | text raw rest ih =>
      rw [Content.decodable, hasOwnEntity_eq_false regular.1, ih regular.2 named]
      rfl
  | cdata chars rest ih => exact ih regular named
  | misc target rest ih =>
      rw [Content.decodable, named.1, ih regular named.2]
      rfl

private theorem sampleable_of_regular (regular : content.Regular) :
    content.sampleable = true := by
  induction content with
  | done => rfl
  | element name attrs body rest inner ih =>
      rw [Content.sampleable, inner regular.2.2.1, ih regular.2.2.2]
      rfl
  | empty name attrs rest ih => exact ih regular.2.2
  | text raw rest ih =>
      rw [Content.sampleable, hasOwnEntity_eq_false regular.1, ih regular.2]
      rfl
  | cdata chars rest ih => exact ih regular
  | misc target rest ih => exact ih regular

theorem decoderRecords_of_plain (tag : String) (regular : content.Regular)
    (named : content.Named isName) :
    decoderRecords isName tag content = (records tag content).map some := by
  induction content with
  | done => rfl
  | element name attrs body rest inner ih =>
      obtain ⟨proper, attributes, inside, behind⟩ := regular
      obtain ⟨inTable, attributesNamed, insideNamed, behindNamed⟩ := named
      simp only [decoderRecords, records]
      rw [if_pos (goStart_of_plain proper inTable attributes attributesNamed), goLocalName_eq proper]
      split
      · rw [if_pos (decodable_of_plain inside insideNamed), ih behind behindNamed]
        rfl
      · rw [inner inside insideNamed, ih behind behindNamed, List.map_append]
  | empty name attrs rest ih =>
      obtain ⟨proper, attributes, behind⟩ := regular
      obtain ⟨inTable, attributesNamed, behindNamed⟩ := named
      simp only [decoderRecords, records]
      rw [if_pos (goStart_of_plain proper inTable attributes attributesNamed), goLocalName_eq proper]
      split
      · rw [ih behind behindNamed]
        rfl
      · exact ih behind behindNamed
  | text raw rest ih =>
      simp only [decoderRecords, records]
      rw [if_neg (Bool.eq_false_iff.mp (hasOwnEntity_eq_false regular.1))]
      exact ih regular.2 named
  | cdata chars rest ih => exact ih regular named
  | misc target rest ih =>
      simp only [decoderRecords, records]
      rw [if_pos named.1]
      exact ih regular named.2

private theorem beforeFailure_some {Item : Type} (items : List Item) :
    beforeFailure (items.map some) = items := by
  induction items with
  | nil => rfl
  | cons item rest ih =>
      rw [List.map_cons, beforeFailure, ih]

private theorem deliveredRecords_of_plain {doc : Document} (plain : doc.Plain isName)
    (tag : String) :
    deliveredRecords isName tag doc =
      if doc.supported = true then records tag doc.content else [] := by
  unfold deliveredRecords
  rw [decoderRecords_of_plain tag plain.regular plain.named, beforeFailure_some]

end Plain

theorem record_regular {tag : String} (regular : content.Regular)
    {record : Record} (member : record ∈ records tag content) :
    (∀ attr ∈ record.attrs, attr.Regular) ∧ record.body.Regular := by
  induction content with
  | done => cases member
  | element name own inner rest innerHolds ih =>
      simp only [records] at member
      split at member
      · rcases List.mem_cons.mp member with same | later
        · cases same
          exact ⟨regular.2.1, regular.2.2.1⟩
        · exact ih regular.2.2.2 later
      · rcases List.mem_append.mp member with inside | later
        · exact innerHolds regular.2.2.1 inside
        · exact ih regular.2.2.2 later
  | empty name own rest ih =>
      simp only [records] at member
      split at member
      · rcases List.mem_cons.mp member with same | later
        · cases same
          exact ⟨regular.2.1, trivial⟩
        · exact ih regular.2.2 later
      · exact ih regular.2.2 member
  | text raw rest ih => exact ih regular.2 member
  | cdata chars rest ih => exact ih regular member
  | misc target rest ih => exact ih regular member

theorem goLocalName_ne_text (proper : NamespaceName name) :
    goLocalName name ≠ "$text" := by
  rw [goLocalName_eq proper]
  intro same
  have within : ∀ c ∈ (localName name).toList, c ∈ name.toList := by
    intro c member
    unfold localName at member
    rw [String.toList_ofList, List.mem_reverse] at member
    exact List.mem_reverse.mp ((List.takeWhile_prefix _).mem member)
  rw [same] at within
  exact proper.noDollar (within '$' (by decide))

private theorem childNames_of_regular (regular : content.Regular) :
    childNames goLocalName content = childNames localName content ∧
      "$text" ∉ childNames goLocalName content := by
  induction content with
  | done => exact ⟨rfl, List.not_mem_nil⟩
  | element name attrs body rest _ ih =>
      obtain ⟨same, absent⟩ := ih regular.2.2.2
      simp only [childNames]
      refine ⟨by rw [goLocalName_eq regular.1, same], ?_⟩
      rw [List.mem_cons, not_or]
      exact ⟨(goLocalName_ne_text regular.1).symm, absent⟩
  | empty name attrs rest ih =>
      obtain ⟨same, absent⟩ := ih regular.2.2
      simp only [childNames]
      refine ⟨by rw [goLocalName_eq regular.1, same], ?_⟩
      rw [List.mem_cons, not_or]
      exact ⟨(goLocalName_ne_text regular.1).symm, absent⟩
  | text raw rest ih => exact ih regular.2
  | cdata chars rest ih => exact ih regular
  | misc target rest ih => exact ih regular

private theorem text_not_attribute (attr : Attribute) : "$text" ≠ "@" ++ goLocalName attr.name := by
  intro same
  have heads := congrArg (fun text => text.toList.head?) same
  simp [String.toList_append] at heads

private theorem sameNames_iff {record : Record} (attributes : ∀ attr ∈ record.attrs, attr.Regular)
    (regular : record.body.Regular) :
    SameNames record record ↔ record.body.hasText = record.body.hasCharData := by
  have names : ∀ name, (∃ attr ∈ record.attrs, name = "@" ++ attributeLocalName attr.name) ↔
      ∃ attr ∈ record.attrs, name = "@" ++ goLocalName attr.name := by
    intro name
    apply exists_congr
    intro attr
    apply and_congr_right
    intro member
    rw [attributeLocalName_eq (attributes attr member).1, goLocalName_eq (attributes attr member).1]
  obtain ⟨children, noChild⟩ := childNames_of_regular regular
  unfold SameNames Record.SampledColumn Record.ReadColumn
  simp only [names, ← children]
  constructor
  · intro columns
    have both := columns "$text"
    have noAttribute : ¬ ∃ attr ∈ record.attrs, "$text" = "@" ++ goLocalName attr.name := by
      rintro ⟨attr, _, same⟩
      exact text_not_attribute attr same
    rw [or_iff_right noAttribute, or_iff_right noChild, or_iff_right noAttribute,
      or_iff_right noChild, and_iff_right rfl, and_iff_right rfl] at both
    exact Bool.eq_iff_iff.mpr both
  · intro texts name
    rw [texts]

theorem alike_iff_mirrored {isName : String → Bool} {doc : Document} (plain : doc.Plain isName)
    (tag : String) : RecordsAlike isName doc tag ↔ RecordsMirrored doc tag := by
  have sampleable : ∀ record ∈ sampledElements (recordTag tag) doc.content,
      record.body.sampleable = true := by
    intro record member
    exact sampleable_of_regular
      (record_regular plain.regular (List.mem_filter.mp member).1).2
  have refused : ¬ ∃ record ∈ (sampledElements (recordTag tag) doc.content).take 2,
      record.body.sampleable = false := by
    rintro ⟨record, member, unread⟩
    rw [sampleable record (List.mem_of_mem_take member)] at unread
    cases unread
  unfold RecordsAlike RecordsMirrored
  rw [deliveredRecords_of_plain plain, and_iff_right sampleable, or_iff_left (fun both => refused both.2)]
  split
  · unfold sampledElements
    rw [forall₂_filter_iff]
    apply forall₂_congr
    intro record member
    obtain ⟨attributes, body⟩ := record_regular plain.regular member
    rw [sameNames_iff attributes body]
    cases record with
    | element attrs inner => exact and_iff_right rfl
    | selfClosing attrs => exact iff_of_false (fun both => by cases both.1) (fun no => no)
  · rw [List.forall₂_nil_right_iff, sampledElements, List.filter_eq_nil_iff]
    apply forall₂_congr
    intro record _member
    rw [Bool.not_eq_true', Bool.not_eq_false]

def asciiName (name : String) : Bool :=
  match name.toList with
  | [] => false
  | c :: rest => (c.isAlpha || c == '_' || c == ':') &&
      rest.all (fun c => c.isAlphanum || c == '_' || c == ':' || c == '-' || c == '.')

def inRoot (record : Content) : Document := { content := .element "root" [] record .done }

def idAttribute : Attribute := { name := "id", value := [.literal '1'] }

def namedRecord : Document :=
  inRoot (.element "record" [idAttribute]
    (.element "name" [] (.text [.literal 'A', .literal 'd', .literal 'a'] .done) .done) .done)

def selfClosingRecord : Document := inRoot (.empty "record" [idAttribute] .done)

def cdataRecord : Document :=
  inRoot (.element "record" [idAttribute] (.cdata "x" .done) .done)

/-- The child's name is one of XML that the decoder's table does not have. -/
def untabledRecord : Document :=
  inRoot (.element "record" []
    (.element "pre\u021B" [] (.text [.literal '5'] .done) .done) .done)

/-- The decoder does not see an encoding with spaces around the equals sign. -/
def spacedRecord : Document :=
  { namedRecord with declaration := some " version=\"1.0\" encoding = \"ISO-8859-1\"" }

def latinRecord : Document :=
  { namedRecord with declaration := some " version=\"1.0\" encoding=\"ISO-8859-1\"" }

theorem plainName (plain : ':' ∉ name.toList ∧ '$' ∉ name.toList) :
    NamespaceName name := ⟨plain.2, .inl plain.1⟩

theorem idAttribute_regular : ∀ attr ∈ [idAttribute], attr.Regular := by
  intro attr member
  rw [List.mem_singleton.mp member]
  refine ⟨plainName (by decide), ?_⟩
  intro name present
  cases List.mem_singleton.mp present

theorem noAttribute_regular : ∀ attr ∈ ([] : List Attribute), attr.Regular := by
  intro attr absent
  cases absent

theorem idAttribute_named : ∀ attr ∈ [idAttribute], asciiName attr.name = true := by
  decide +kernel

theorem noAttribute_named : ∀ attr ∈ ([] : List Attribute), asciiName attr.name = true := by
  decide

private theorem namedRecord_plain : namedRecord.Plain asciiName := by
  constructor
  · refine ⟨plainName (by decide), noAttribute_regular, ⟨plainName (by decide), idAttribute_regular,
      ⟨plainName (by decide), noAttribute_regular, ⟨?_, trivial⟩, trivial⟩, trivial⟩, trivial⟩
    intro name member
    simp at member
  · exact ⟨by decide +kernel, noAttribute_named, ⟨by decide +kernel, idAttribute_named,
      ⟨by decide +kernel, noAttribute_named, trivial, trivial⟩, trivial⟩, trivial⟩

private theorem cdataRecord_plain : cdataRecord.Plain asciiName := by
  constructor
  · exact ⟨plainName (by decide), noAttribute_regular,
      ⟨plainName (by decide), idAttribute_regular, trivial, trivial⟩, trivial⟩
  · exact ⟨by decide +kernel, noAttribute_named, ⟨by decide +kernel, idAttribute_named, trivial,
      trivial⟩, trivial⟩

private theorem namedRecord_records : records (recordTag "") namedRecord.content =
    [.element [idAttribute]
      (.element "name" [] (.text [.literal 'A', .literal 'd', .literal 'a'] .done) .done)] := by
  decide +kernel

theorem not_mirrors_of_lengths {isName : String → Bool} {doc : Document} {tag : String}
    (sampleable : ∀ record ∈ sampledElements (recordTag tag) doc.content,
      record.body.sampleable = true)
    (lengths : (sampledElements (recordTag tag) doc.content).length ≠
      (deliveredRecords isName (recordTag tag) doc).length) : ¬ Mirrors isName doc tag := by
  rw [mirrors_iff]
  rintro (⟨_, same⟩ | ⟨_, record, member, refused⟩)
  · exact lengths same.length_eq
  · rw [sampleable record (List.mem_of_mem_take member)] at refused
    cases refused

end MigrationPlatform.Sampling
