/-
The operations of an OpenAPI document, as the Designer and the suggestions list them.

`parse_operations` makes one entry of each supported method of each path. An
operation without an id gets one made of its method and its path with the slashes
replaced, and the parameters of the path are listed before those of the operation.
Neither is compared with what is already there: two entries can have one id, and
one entry two parameters of one name and location.
-/

import Mathlib.Data.List.Nodup
import MigrationPlatform.Connectors.Ingest
import MigrationPlatform.Foundation.Trimming

namespace MigrationPlatform.Suggest

open Connectors (Value Data getKey asStr asObject)

section Values

def asBool : Value → Option Bool
  | .bool value => some value
  | _ => none

def asArray : Value → Option (List Value)
  | .list items => some items
  | _ => none

/-- `str::replace` of a tilde and the digit. -/
def unescapeDigit (digit with_ : Char) : List Char → List Char
  | '~' :: c :: rest =>
      if c = digit then with_ :: unescapeDigit digit with_ rest
      else '~' :: unescapeDigit digit with_ (c :: rest)
  | c :: rest => c :: unescapeDigit digit with_ rest
  | [] => []

def unescapeToken (token : List Char) : List Char :=
  unescapeDigit '0' '~' (unescapeDigit '1' '/' token)

/-- The index that a token of a pointer is: no sign, no leading zero, and an `usize`. -/
def parseIndex (token : List Char) : Option Nat :=
  if token.isEmpty || (token.head? == some '0' && token.length != 1) ||
      token.any (fun c => !c.isDigit) then none
  else
    let index := token.foldl (fun n c => 10 * n + (c.toNat - 48)) 0
    if index < UInt64.size then some index else none

def pointerStep (target : Value) (token : List Char) : Option Value :=
  match target with
  | .object fields => fields.lookup (String.ofList (unescapeToken token))
  | .list items => (parseIndex (unescapeToken token)).bind (fun index => items[index]?)
  | _ => none

def pointer (value : Value) (path : List Char) : Option Value :=
  match path with
  | [] => some value
  | '/' :: rest => (rest.splitOn '/').foldlM pointerStep value
  | _ => none

end Values

section References

variable (spec : Value)

def lookupPointer (reference : String) : Option Value :=
  match reference.toList with
  | '#' :: path => pointer spec path
  | _ => none

def refTarget (node : Value) : Option Value :=
  ((getKey node "$ref").bind asStr).bind (lookupPointer spec)

def resolveRefFrom : Nat → Value → Value
  | 0, node => node
  | left + 1, node =>
      match refTarget spec node with
      | some target => resolveRefFrom left target
      | none => node

/-- From depth 0, with the last step at depth 8. -/
def resolveRef (node : Value) : Value := resolveRefFrom spec 9 node

def truncatedSchema : Value := .object [("$comment", .text "truncated (max ref depth)")]

def resolveSchemaFrom : Nat → Value → Value
  | 0, _ => truncatedSchema
  | left + 1, node =>
      match (getKey node "$ref").bind asStr with
      | some reference =>
          match lookupPointer spec reference with
          | some target => resolveSchemaFrom left target
          | none => node
      | none =>
          match node with
          | .object fields =>
              .object (fields.map (fun field => (field.1, resolveSchemaFrom left field.2)))
          | .list items => .list (items.map (resolveSchemaFrom left))
          | other => other

/-- From depth 0, with the last node at depth 6. -/
def resolveSchema (node : Value) : Value := resolveSchemaFrom spec 7 node

end References

inductive SpecMethod
  | get
  | post
  | put
  | patch
  | delete
deriving DecidableEq, Repr

namespace SpecMethod

def all : List SpecMethod := [.get, .post, .put, .patch, .delete]

def text : SpecMethod → String
  | .get => "get"
  | .post => "post"
  | .put => "put"
  | .patch => "patch"
  | .delete => "delete"

def upper : SpecMethod → String
  | .get => "GET"
  | .post => "POST"
  | .put => "PUT"
  | .patch => "PATCH"
  | .delete => "DELETE"

end SpecMethod

structure SpecParameter where
  name : String
  location : String
  required : Bool
  schema : Value

structure SpecEntry where
  operationId : String
  method : String
  path : String
  url : String
  summary : String
  description : String
  parameters : List SpecParameter
  requestSchema : Value
  responseSchema : Value

/-- What `url::Url::parse` reads of the source of a document. -/
structure SourceUrl where
  scheme : String
  host : Option String
  port : Option Nat

variable (parseUrl : String → Option SourceUrl)

def isHttp (server : List Char) : Bool :=
  "http://".toList.isPrefixOf server || "https://".toList.isPrefixOf server

def originOf (source : SourceUrl) : String :=
  source.scheme ++ "://" ++ source.host.getD "" ++
    match source.port with
    | some port => ":" ++ toString port
    | none => ""

def resolveOperationUrl (serverUrl path : String) (sourceUrl : Option String) : String :=
  let server := (serverUrl.toList.reverse.dropWhile (fun c => c == '/')).reverse
  let rooted := if path.toList.head? = some '/' then path else "/" ++ path
  if isHttp server = true then String.ofList server ++ rooted
  else
    match sourceUrl.bind parseUrl with
    | some source =>
        if server = [] then originOf source ++ rooted
        else originOf source ++ String.ofList server ++ rooted
    | none => String.ofList server ++ rooted

def flattenPath (path : String) : List Char :=
  (Trimming.trim (fun c => c == '/') path.toList).map (fun c => if c = '/' then '_' else c)

def generatedId (method : SpecMethod) (path : String) : String :=
  String.ofList (method.text.toList ++ '_' :: flattenPath path)

def declaredId (op : Value) : Option String := (getKey op "operationId").bind asStr

section Entries

variable (spec : Value)

def parameterOf (node : Value) : SpecParameter :=
  let p := resolveRef spec node
  { name := ((getKey p "name").bind asStr).getD ""
    location := ((getKey p "in").bind asStr).getD "query"
    required := ((getKey p "required").bind asBool).getD false
    schema := resolveRef spec ((getKey p "schema").getD .null) }

def listedParameters (source : Option Value) : List SpecParameter :=
  ((source.bind asArray).getD []).map (parameterOf spec)

def contentSchema (holder : Value) : Option Value :=
  (((getKey holder "content").bind (fun content => getKey content "application/json")).bind
    (fun json => getKey json "schema")).map (resolveSchema spec)

def requestSchemaOf (op : Value) : Value :=
  (((getKey op "requestBody").map (resolveRef spec)).bind (contentSchema spec)).getD .null

def responseSchemaOf (op : Value) : Value :=
  (((((getKey op "responses").bind asObject).bind
    (fun responses => ["200", "201", "202"].findSome? (fun code => responses.lookup code))).map
      (resolveRef spec)).bind (contentSchema spec)).getD .null

def baseUrl : String :=
  (((((getKey spec "servers").bind asArray).bind List.head?).bind
    (fun server => getKey server "url")).bind asStr).getD ""

def pathsOf : Data := ((getKey spec "paths").bind asObject).getD []

def entryOf (sourceUrl : Option String) (path : String) (method : SpecMethod) (item : Data)
    (op : Value) : SpecEntry :=
  { operationId := (declaredId op).getD (generatedId method path)
    method := method.upper
    path := path
    url := resolveOperationUrl parseUrl (baseUrl spec) path sourceUrl
    summary := ((getKey op "summary").bind asStr).getD ""
    description := ((getKey op "description").bind asStr).getD ""
    parameters := listedParameters spec (item.lookup "parameters") ++
      listedParameters spec (getKey op "parameters")
    requestSchema := requestSchemaOf spec op
    responseSchema := responseSchemaOf spec op }

/-- The paths come in the order of the map. -/
def parseOperations (sourceUrl : Option String) : List SpecEntry :=
  (pathsOf spec).flatMap (fun entry =>
    match asObject entry.2 with
    | none => []
    | some item =>
        SpecMethod.all.filterMap (fun method =>
          (item.lookup method.text).map (entryOf parseUrl spec sourceUrl entry.1 method item)))

end Entries

def findOperation (entries : List SpecEntry) (id : String) : Option SpecEntry :=
  entries.find? (fun entry => entry.operationId == id)

/-! ### What a document declares -/

structure PresentOperation where
  path : String
  method : SpecMethod
  item : Data
  op : Value

def operationsAt (entry : String × Value) : List PresentOperation :=
  match asObject entry.2 with
  | none => []
  | some item =>
      SpecMethod.all.filterMap (fun method =>
        (item.lookup method.text).map (fun op => ⟨entry.1, method, item, op⟩))

def presentOperations (spec : Value) : List PresentOperation := (pathsOf spec).flatMap operationsAt

def IsPresent (spec : Value) (path : String) (method : SpecMethod) : Prop :=
  ∃ item op, (pathsOf spec).lookup path = some (.object item) ∧ item.lookup method.text = some op

/-- A document of `serde_json`: the names of a map are distinct. -/
structure SpecDocument where
  root : Value
  distinct : ((pathsOf root).map Prod.fst).Nodup

def SpecParameter.key (parameter : SpecParameter) : String × String :=
  (parameter.name, parameter.location)

namespace PresentOperation

def declared (operation : PresentOperation) : Option String := declaredId operation.op

def generated (operation : PresentOperation) : String :=
  generatedId operation.method operation.path

def id (operation : PresentOperation) : String := operation.declared.getD operation.generated

def flattened (operation : PresentOperation) : SpecMethod × List Char :=
  (operation.method, flattenPath operation.path)

variable (spec : Value)

def pathParameters (operation : PresentOperation) : List SpecParameter :=
  listedParameters spec (operation.item.lookup "parameters")

def ownParameters (operation : PresentOperation) : List SpecParameter :=
  listedParameters spec (getKey operation.op "parameters")

end PresentOperation

/-- One parameter for each name and location, that of the operation before that of the path. -/
structure ParametersMerged (shared own merged : List SpecParameter) : Prop where
  unique : (merged.map SpecParameter.key).Nodup
  replaced : ∀ parameter, parameter ∈ merged ↔
    parameter ∈ own ∨ parameter ∈ shared ∧ parameter.key ∉ own.map SpecParameter.key

/-- The entries are the operations of the document, each with an id and parameters of its own. -/
structure Flattened (spec : Value) (entries : List SpecEntry) : Prop where
  once : (entries.map (fun entry => (entry.path, entry.method))).Nodup
  present : ∀ path method, IsPresent spec path method ↔
    ∃ entry ∈ entries, entry.path = path ∧ entry.method = method.upper
  ids : (entries.map SpecEntry.operationId).Nodup
  found : ∀ entry ∈ entries, findOperation entries entry.operationId = some entry
  parameters : ∀ operation ∈ presentOperations spec, ∃ entry ∈ entries,
    entry.path = operation.path ∧ entry.method = operation.method.upper ∧
      ParametersMerged (operation.pathParameters spec) (operation.ownParameters spec)
        entry.parameters

def DeclaredApart (spec : Value) : Prop :=
  ((presentOperations spec).filterMap PresentOperation.declared).Nodup

instance (spec : Value) : Decidable (DeclaredApart spec) :=
  inferInstanceAs (Decidable (List.Nodup _))

/-- No two operations without an id have one method and paths that differ in
slashes only, no generated id is declared elsewhere, and no operation repeats the
name and location of a parameter. -/
structure Unambiguous (spec : Value) : Prop where
  flat : (((presentOperations spec).filter (fun operation => operation.declared.isNone)).map
    PresentOperation.flattened).Nodup
  apart : ∀ operation ∈ presentOperations spec, operation.declared = none →
    ∀ other ∈ presentOperations spec, other.declared ≠ some operation.generated
  parameters : ∀ operation ∈ presentOperations spec,
    ((operation.pathParameters spec ++ operation.ownParameters spec).map
      SpecParameter.key).Nodup

instance (spec : Value) : Decidable (Unambiguous spec) :=
  decidable_of_iff
    ((((presentOperations spec).filter (fun operation => operation.declared.isNone)).map
        PresentOperation.flattened).Nodup ∧
      (∀ operation ∈ presentOperations spec, operation.declared = none →
        ∀ other ∈ presentOperations spec, other.declared ≠ some operation.generated) ∧
      ∀ operation ∈ presentOperations spec,
        ((operation.pathParameters spec ++ operation.ownParameters spec).map
          SpecParameter.key).Nodup)
    ⟨fun all => ⟨all.1, all.2.1, all.2.2⟩, fun all => ⟨all.flat, all.apart, all.parameters⟩⟩

section Ids

theorem text_plain (method : SpecMethod) : method.text.toList.all (fun c => c != '_') = true := by
  cases method <;> rfl

private theorem text_injective : ∀ {left right : SpecMethod}, left.text.toList = right.text.toList →
    left = right := by
  intro left right same
  cases left <;> cases right <;> first | rfl | exact absurd same (by decide)

theorem generated_eq_iff {left right : PresentOperation} :
    left.generated = right.generated ↔ left.flattened = right.flattened := by
  have method_of : ∀ (method : SpecMethod) (flat : List Char),
      (method.text.toList ++ '_' :: flat).takeWhile (fun c => c != '_') = method.text.toList := by
    intro method flat
    rw [List.takeWhile_append_of_pos]
    · simp
    · exact List.all_eq_true.mp (text_plain method)
  constructor
  · intro same
    have lists : left.method.text.toList ++ '_' :: flattenPath left.path =
        right.method.text.toList ++ '_' :: flattenPath right.path := String.ofList_injective same
    have methods : left.method = right.method := by
      apply text_injective
      rw [← method_of left.method, lists, method_of]
    rw [methods] at lists
    have flat := (List.cons.inj (List.append_cancel_left lists)).2
    unfold PresentOperation.flattened
    rw [methods, flat]
  · intro same
    obtain ⟨methods, flat⟩ := Prod.mk.inj same
    unfold PresentOperation.generated generatedId
    rw [methods, flat]

theorem id_of_declared {operation : PresentOperation} {id : String}
    (declared : operation.declared = some id) : operation.id = id := by
  unfold PresentOperation.id
  rw [declared]
  rfl

theorem id_of_undeclared {operation : PresentOperation} (undeclared : operation.declared = none) :
    operation.id = operation.generated := by
  unfold PresentOperation.id
  rw [undeclared]
  rfl

theorem ids_nodup_iff (operations : List PresentOperation) :
    (operations.map PresentOperation.id).Nodup ↔
      (operations.filterMap PresentOperation.declared).Nodup ∧
        ((operations.filter (fun operation => operation.declared.isNone)).map
          PresentOperation.flattened).Nodup ∧
        ∀ operation ∈ operations, operation.declared = none →
          ∀ other ∈ operations, other.declared ≠ some operation.generated := by
  unfold List.Nodup
  rw [List.pairwise_map, List.pairwise_filterMap, List.pairwise_map, List.pairwise_filter]
  constructor
  · intro distinct
    refine ⟨distinct.imp ?_, distinct.imp ?_, ?_⟩
    · intro first second apart one declared other otherDeclared same
      rw [id_of_declared declared, id_of_declared otherDeclared] at apart
      exact apart same
    · intro first second apart undeclared otherUndeclared same
      rw [id_of_undeclared (Option.isNone_iff_eq_none.mp undeclared),
        id_of_undeclared (Option.isNone_iff_eq_none.mp otherUndeclared)] at apart
      exact apart (generated_eq_iff.mpr same)
    · intro operation member undeclared other otherMember declared
      have same : operation = other := by
        apply List.inj_on_of_nodup_map (List.pairwise_map.mpr distinct) member otherMember
        rw [id_of_undeclared undeclared, id_of_declared declared]
      rw [same, declared] at undeclared
      cases undeclared
  · rintro ⟨declaredApart, flatApart, apart⟩
    refine (declaredApart.and flatApart).imp_of_mem ?_
    intro first second member otherMember both same
    cases declared : first.declared with
    | some id =>
        rw [id_of_declared declared] at same
        cases otherDeclared : second.declared with
        | some other =>
            rw [id_of_declared otherDeclared] at same
            exact both.1 id declared other otherDeclared same
        | none =>
            rw [id_of_undeclared otherDeclared] at same
            exact apart second otherMember otherDeclared first member (same ▸ declared)
    | none =>
        rw [id_of_undeclared declared] at same
        cases otherDeclared : second.declared with
        | some other =>
            rw [id_of_declared otherDeclared] at same
            exact apart first member declared second otherMember (same ▸ otherDeclared)
        | none =>
            rw [id_of_undeclared otherDeclared] at same
            exact both.2 (Option.isNone_iff_eq_none.mpr declared)
              (Option.isNone_iff_eq_none.mpr otherDeclared) (generated_eq_iff.mp same)

end Ids

section Presence

variable {spec : Value} {parseUrl : String → Option SourceUrl} {sourceUrl : Option String}

theorem parseOperations_eq :
    parseOperations parseUrl spec sourceUrl =
      (presentOperations spec).map (fun operation =>
        entryOf parseUrl spec sourceUrl operation.path operation.method operation.item
          operation.op) := by
  unfold parseOperations presentOperations
  rw [List.map_flatMap]
  congr 1
  funext entry
  unfold operationsAt
  cases asObject entry.2 with
  | none => rfl
  | some item =>
      dsimp only
      rw [List.map_filterMap]
      congr 1
      funext method
      rw [Option.map_map]
      rfl

theorem mem_operationsAt {entry : String × Value} {operation : PresentOperation} :
    operation ∈ operationsAt entry ↔
      entry = (operation.path, .object operation.item) ∧
        operation.item.lookup operation.method.text = some operation.op := by
  obtain ⟨path, value⟩ := entry
  obtain ⟨ownPath, method, item, op⟩ := operation
  unfold operationsAt
  cases value with
  | object fields =>
      have every : method ∈ SpecMethod.all := by cases method <;> decide
      dsimp only [asObject]
      rw [List.mem_filterMap]
      constructor
      · rintro ⟨other, _member, made⟩
        obtain ⟨found, lookedUp, same⟩ := Option.map_eq_some_iff.mp made
        cases same
        exact ⟨rfl, lookedUp⟩
      · rintro ⟨same, lookedUp⟩
        cases same
        exact ⟨method, every, by rw [lookedUp]; rfl⟩
  | _ => exact iff_of_false (fun impossible => by cases impossible) (fun both => by cases both.1)

theorem mem_presentOperations (document : SpecDocument) {operation : PresentOperation} :
    operation ∈ presentOperations document.root ↔
      (pathsOf document.root).lookup operation.path = some (.object operation.item) ∧
        operation.item.lookup operation.method.text = some operation.op := by
  unfold presentOperations
  rw [List.mem_flatMap, ← Data.mem_iff_lookup document.distinct]
  constructor
  · rintro ⟨entry, member, inside⟩
    obtain ⟨same, lookedUp⟩ := mem_operationsAt.mp inside
    rw [same] at member
    exact ⟨member, lookedUp⟩
  · rintro ⟨member, lookedUp⟩
    exact ⟨_, member, mem_operationsAt.mpr ⟨rfl, lookedUp⟩⟩

theorem presentOperations_nodup (document : SpecDocument) :
    ((presentOperations document.root).map
      (fun operation => (operation.path, operation.method))).Nodup := by
  unfold presentOperations List.Nodup
  rw [List.pairwise_map, List.pairwise_flatMap]
  constructor
  · rintro ⟨path, value⟩ _member
    unfold operationsAt
    cases value with
    | object fields =>
        dsimp only [asObject]
        rw [List.pairwise_filterMap]
        have methods : SpecMethod.all.Nodup := by decide
        refine methods.imp ?_
        intro first second different one made other otherMade same
        obtain ⟨_, _, shape⟩ := Option.map_eq_some_iff.mp made
        obtain ⟨_, _, otherShape⟩ := Option.map_eq_some_iff.mp otherMade
        rw [← shape, ← otherShape] at same
        exact different (Prod.mk.inj same).2
    | _ => exact List.Pairwise.nil
  · have names : (pathsOf document.root).Pairwise (fun one other => one.1 ≠ other.1) :=
      List.pairwise_map.mp document.distinct
    refine names.imp ?_
    intro one other different first firstMember second secondMember same
    rw [(mem_operationsAt.mp firstMember).1, (mem_operationsAt.mp secondMember).1] at different
    exact different (Prod.mk.inj same).1

end Presence

/-! ### Faithful documents -/

section Documents

variable {parseUrl : String → Option SourceUrl} {sourceUrl : Option String}
  {document : SpecDocument}

theorem upper_injective : ∀ {left right : SpecMethod}, left.upper = right.upper → left = right := by
  intro left right same
  cases left <;> cases right <;> first | rfl | exact absurd same (by decide)

theorem entries_once :
    ((parseOperations parseUrl document.root sourceUrl).map
      (fun entry => (entry.path, entry.method))).Nodup := by
  rw [parseOperations_eq, List.map_map]
  have distinct := presentOperations_nodup document
  unfold List.Nodup at distinct ⊢
  rw [List.pairwise_map] at distinct ⊢
  refine distinct.imp ?_
  intro first second different same
  obtain ⟨paths, methods⟩ := Prod.mk.inj same
  exact different (Prod.ext paths (upper_injective methods))

private theorem isPresent_iff {path : String} {method : SpecMethod} :
    IsPresent document.root path method ↔
      ∃ entry ∈ parseOperations parseUrl document.root sourceUrl,
        entry.path = path ∧ entry.method = method.upper := by
  rw [parseOperations_eq]
  constructor
  · rintro ⟨item, op, paths, lookedUp⟩
    have member : ⟨path, method, item, op⟩ ∈ presentOperations document.root :=
      (mem_presentOperations document).mpr ⟨paths, lookedUp⟩
    exact ⟨_, List.mem_map_of_mem member, rfl, rfl⟩
  · rintro ⟨entry, member, samePath, sameMethod⟩
    obtain ⟨operation, inside, shape⟩ := List.mem_map.mp member
    obtain ⟨paths, lookedUp⟩ := (mem_presentOperations document).mp inside
    rw [← shape] at samePath sameMethod
    have path_ : operation.path = path := samePath
    have method_ : operation.method = method := upper_injective sameMethod
    rw [path_] at paths
    rw [method_] at lookedUp
    exact ⟨operation.item, operation.op, paths, lookedUp⟩

private theorem findOperation_of_nodup {entries : List SpecEntry}
    (distinct : (entries.map SpecEntry.operationId).Nodup) :
    ∀ entry ∈ entries, findOperation entries entry.operationId = some entry := by
  intro entry member
  have found : (findOperation entries entry.operationId).isSome := by
    unfold findOperation
    rw [List.find?_isSome]
    exact ⟨entry, member, beq_self_eq_true _⟩
  obtain ⟨other, is⟩ := Option.isSome_iff_exists.mp found
  have same : other.operationId = entry.operationId := by
    have holds := List.find?_some is
    exact beq_iff_eq.mp holds
  have inside := List.mem_of_find?_eq_some is
  rw [is, List.inj_on_of_nodup_map distinct inside member same]

private theorem parametersMerged_append_iff {shared own : List SpecParameter} :
    ParametersMerged shared own (shared ++ own) ↔
      ((shared ++ own).map SpecParameter.key).Nodup := by
  constructor
  · exact ParametersMerged.unique
  · intro distinct
    refine ⟨distinct, ?_⟩
    rw [List.map_append, List.nodup_append] at distinct
    intro parameter
    rw [List.mem_append]
    constructor
    · rintro (inShared | inOwn)
      · right
        refine ⟨inShared, fun inOwn => ?_⟩
        exact distinct.2.2 _ (List.mem_map_of_mem inShared) _ inOwn rfl
      · exact .inl inOwn
    · rintro (inOwn | ⟨inShared, _⟩)
      · exact .inr inOwn
      · exact .inl inShared

/-- A document whose declared ids are distinct is flattened faithfully if and only
if it is unambiguous. -/
theorem parseOperations_flattened_iff (parseUrl : String → Option SourceUrl)
    (sourceUrl : Option String) (document : SpecDocument)
    (declared : DeclaredApart document.root) :
    Flattened document.root (parseOperations parseUrl document.root sourceUrl) ↔
      Unambiguous document.root := by
  have ids : ((parseOperations parseUrl document.root sourceUrl).map
      SpecEntry.operationId).Nodup ↔
        ((presentOperations document.root).map PresentOperation.id).Nodup := by
    rw [parseOperations_eq, List.map_map]
    rfl
  constructor
  · intro flattened
    obtain ⟨_, flat, apart⟩ := (ids_nodup_iff _).mp (ids.mp flattened.ids)
    refine ⟨flat, apart, ?_⟩
    intro operation member
    obtain ⟨entry, listed, path, method, merged⟩ := flattened.parameters operation member
    have own : entryOf parseUrl document.root sourceUrl operation.path operation.method
        operation.item operation.op ∈ parseOperations parseUrl document.root sourceUrl := by
      rw [parseOperations_eq]
      exact List.mem_map_of_mem member
    have same := List.inj_on_of_nodup_map entries_once listed own (Prod.ext path method)
    rw [same] at merged
    exact merged.unique
  · intro unambiguous
    have distinct := ids.mpr ((ids_nodup_iff _).mpr
      ⟨declared, unambiguous.flat, unambiguous.apart⟩)
    refine ⟨entries_once, fun path method => isPresent_iff, distinct,
      findOperation_of_nodup distinct, ?_⟩
    intro operation member
    refine ⟨entryOf parseUrl document.root sourceUrl operation.path operation.method operation.item
      operation.op, ?_, rfl, rfl, ?_⟩
    · rw [parseOperations_eq]
      exact List.mem_map_of_mem member
    · exact parametersMerged_append_iff.mpr (unambiguous.parameters operation member)

end Documents

def inPath : Value := .object [("in", .text "path"), ("name", .text "id")]

def jsonContent (schema : Value) : Value :=
  .object [("content", .object [("application/json", .object [("schema", schema)])])]

def toysDocument : SpecDocument where
  root := .object [
    ("openapi", .text "3.0.0"),
    ("paths", .object [
      ("/pets", .object [
        ("post", .object [
          ("operationId", .text "createPet"),
          ("requestBody", jsonContent (.object [("$ref", .text "#/schemas/Pet")]))])]),
      ("/pets/\x7bid\x7d/toys", .object [
        ("parameters", .list [inPath]),
        ("post", .object [("responses", .object [])])])]),
    ("schemas", .object [("Pet", .object [("type", .text "object")])])]
  distinct := by decide

/-- Two paths that differ in a slash only, and a parameter that is given anew. -/
def slashDocument : SpecDocument where
  root := .object [
    ("openapi", .text "3.0.0"),
    ("paths", .object [
      ("/a/b", .object [("get", .object [])]),
      ("/a_b", .object [
        ("get", .object [("parameters", .list [inPath])]),
        ("parameters", .list [inPath])])])]
  distinct := by decide

theorem toysDocument_flattened :
    Flattened toysDocument.root (parseOperations (fun _ => none) toysDocument.root none) :=
  (parseOperations_flattened_iff (fun _ => none) none toysDocument (by decide)).mpr (by decide)

theorem slashDocument_ambiguous :
    DeclaredApart slashDocument.root ∧
      (parseOperations (fun _ => none) slashDocument.root none).map SpecEntry.operationId =
        ["get_a_b", "get_a_b"] ∧
      ¬Flattened slashDocument.root
        (parseOperations (fun _ => none) slashDocument.root none) := by
  have ids : (parseOperations (fun _ => none) slashDocument.root none).map SpecEntry.operationId =
      ["get_a_b", "get_a_b"] := by decide
  refine ⟨by decide, ids, fun flattened => ?_⟩
  have distinct := flattened.ids
  rw [ids] at distinct
  exact absurd distinct (by decide)

end MigrationPlatform.Suggest
