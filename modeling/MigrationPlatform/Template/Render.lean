/-
Rendering a step against a row and the responses of earlier steps.

The sigils `$from`, `$fromResponse`, `$literal` and `$py` are objects of the
template; the renderer looks for them in that order. JSONPath, the parser of
response bodies and the parts of `net/url` behind the query are parameters.
-/

import MigrationPlatform.Connectors.Ingest

namespace MigrationPlatform.Template

open MigrationPlatform.Connectors

structure Auth where
  type : String
  secretRef : Option String
  headerName : Option String

structure Lookup where
  method : Option String
  url : String
  pathParams : Option Data
  queryParams : Option Data
  headers : Option Data
  foundPath : String

inductive DeliveryMode
  | idempotent
  | lookup
  | manual
deriving DecidableEq, Repr

structure Delivery where
  mode : DeliveryMode
  idempotencyRetentionHours : Option Nat
  lookup : Option Lookup

structure Destination where
  type : String
  method : String
  url : String
  pathParams : Option Data := none
  queryParams : Option Data := none
  headers : Option Data := none
  auth : Option Auth := none
  idempotencyKey : Option Value := none
  idempotencyHeader : Option String := none
  delivery : Option Delivery := none

inductive OnFailure
  | stop
  | continue
deriving DecidableEq, Repr

/-- `mapping` is the payload of a step's mapping. -/
structure Step where
  name : String
  mapping : Option Data
  destination : Destination
  onFailure : Option OnFailure := none

structure Context where
  row : Data
  responses : Data

inductive RenderError
  | notExecuted (step : String)
  | invalidPath (path problem : String)
  | noMatch (path step : String)
  | resolvedToNull (path step : String)
  | noValue (param : String)
  | unresolvedPlaceholders (names : List String)
  | parseURL (problem : String)
  | inPathParam (key : String) (cause : RenderError)
  | inQueryParam (key : String) (cause : RenderError)
  | inHeader (key : String) (cause : RenderError)
  | inPayload (key : String) (cause : RenderError)
  | inLookup (cause : RenderError)

/-- `quoted` stands for the verb `%q`. -/
def RenderError.text (quoted : String → String) : RenderError → String
  | .notExecuted step =>
      "$fromResponse references step " ++ quoted step ++ " which has not executed"
  | .invalidPath path problem => "invalid JSONPath " ++ quoted path ++ ": " ++ problem
  | .noMatch path step =>
      "JSONPath " ++ quoted path ++ " matched nothing in response of step " ++ quoted step
  | .resolvedToNull path step =>
      "JSONPath " ++ quoted path ++ " resolved to null in response of step " ++ quoted step
  | .noValue param => "pathParam " ++ quoted param ++ " has no value in row"
  | .unresolvedPlaceholders names => "unresolved url placeholder(s): " ++ ",".intercalate names
  | .parseURL problem => "parse url for query append: " ++ problem
  | .inPathParam key cause => "pathParam " ++ quoted key ++ ": " ++ cause.text quoted
  | .inQueryParam key cause => "queryParam " ++ quoted key ++ ": " ++ cause.text quoted
  | .inHeader key cause => "header " ++ quoted key ++ ": " ++ cause.text quoted
  | .inPayload key cause => "payload key " ++ quoted key ++ ": " ++ cause.text quoted
  | .inLookup cause => "delivery.lookup: " ++ cause.text quoted

def RenderError.root : RenderError → RenderError
  | .inPathParam _ cause => cause.root
  | .inQueryParam _ cause => cause.root
  | .inHeader _ cause => cause.root
  | .inPayload _ cause => cause.root
  | .inLookup cause => cause.root
  | other => other

inductive QueryOp
  | add (key value : String)
  | set (key value : String)
deriving DecidableEq, Repr

/-- `fraction` is what decoding makes of a number that is not whole. -/
structure RenderEnv where
  fraction : String → Option String
  parseJSONPath : String → Except String (Value → List Value)
  parseBody : String → Option Value
  sprint : Value → String
  parseURL : String → Except String String
  withQuery : String → List QueryOp → String

/-- No number with a fraction, no path and no body is read. -/
def bareEnv : RenderEnv where
  fraction _ := none
  parseJSONPath _ := .error "no path"
  parseBody _ := none
  sprint _ := ""
  parseURL url := .ok url
  withQuery url _ := url

variable (env : RenderEnv)

def Context.addResponse (c : Context) (name body : String) : Context :=
  let parsed := if body = "" then Value.null else (env.parseBody body).getD .null
  { c with responses := c.responses.set name parsed }

def Context.resolveResponsePath (c : Context) (step path : String) : Except RenderError Value :=
  match c.responses.lookup step with
  | none => .error (.notExecuted step)
  | some doc =>
      match env.parseJSONPath path with
      | .error problem => .error (.invalidPath path problem)
      | .ok expr =>
          match expr doc with
          | [] => .error (.noMatch path step)
          | [only] => .ok only
          | results => .ok (.list results)

/-- The `path` of a response reference; empty where it is no string. -/
def referencePath (fields : Data) : String :=
  match fields.lookup "path" with
  | some (.text path) => path
  | _ => ""

inductive Sigil
  | rowField (field : String)
  | response (step path : String)
  | literal (value : Value)
  | py
  | plain

/-- Which sigil `renderValue` takes an object for. -/
def sigil (fields : Data) : Sigil :=
  match fields.lookup "$from" with
  | some (.text field) => .rowField field
  | _ =>
      match fields.lookup "$fromResponse" with
      | some (.text step) => .response step (referencePath fields)
      | _ =>
          match fields.lookup "$literal" with
          | some value => .literal value
          | none =>
              match fields.lookup "$py" with
              | some (.text _) => .py
              | _ => .plain

mutual

def renderValue (ctx : Context) : Value → Except RenderError Value
  | .object fields =>
      match sigil fields with
      | .rowField field => .ok ((ctx.row.lookup field).getD .null)
      | .response step path => ctx.resolveResponsePath env step path
      | .literal value => .ok value
      | .py => .ok (.object fields)
      | .plain =>
          match renderFields ctx fields with
          | .error problem => .error problem
          | .ok rendered => .ok (.object rendered)
  | .list items =>
      match renderItems ctx items with
      | .error problem => .error problem
      | .ok rendered => .ok (.list rendered)
  | .null => .ok .null
  | .bool value => .ok (.bool value)
  | .number text => .ok (.number text)
  | .text value => .ok (.text value)

def renderFields (ctx : Context) : List (String × Value) → Except RenderError (List (String × Value))
  | [] => .ok []
  | (key, value) :: rest =>
      match renderValue ctx value with
      | .error problem => .error problem
      | .ok first =>
          match renderFields ctx rest with
          | .error problem => .error problem
          | .ok later => .ok ((key, first) :: later)

def renderItems (ctx : Context) : List Value → Except RenderError (List Value)
  | [] => .ok []
  | value :: rest =>
      match renderValue ctx value with
      | .error problem => .error problem
      | .ok first =>
          match renderItems ctx rest with
          | .error problem => .error problem
          | .ok later => .ok (first :: later)

end

/-- The payload itself is never taken for a sigil. -/
def renderPayload (ctx : Context) : Data → Except RenderError Data
  | [] => .ok []
  | (key, value) :: rest =>
      match renderValue env ctx value with
      | .error problem => .error (.inPayload key problem)
      | .ok first =>
          match renderPayload ctx rest with
          | .error problem => .error problem
          | .ok later => .ok ((key, first) :: later)

def coerceToString : Value → String
  | .text value => value
  | other => env.sprint other

/-- `none` where the expression has no value for the row. -/
def resolveValueExpr (ctx : Context) : Value → Except RenderError (Option String)
  | .text value => .ok (some value)
  | .object fields =>
      match fields.lookup "$from" with
      | some (.text field) =>
          match ctx.row.lookup field with
          | none => .ok none
          | some .null => .ok none
          | some value => .ok (some (coerceToString env value))
      | _ =>
          match fields.lookup "$literal" with
          | some (.text value) => .ok (some value)
          | _ =>
              match fields.lookup "$fromResponse" with
              | some (.text step) =>
                  match ctx.resolveResponsePath env step (referencePath fields) with
                  | .error problem => .error problem
                  | .ok .null => .error (.resolvedToNull (referencePath fields) step)
                  | .ok value => .ok (some (coerceToString env value))
              | _ => .ok none
  | _ => .ok none

def sortedEntries (data : Data) : Data :=
  data.mergeSort (fun left right => decide (left.1 ≤ right.1))

/-- The bytes that `url.PathEscape` leaves as they are. -/
def isPathSafe (b : UInt8) : Bool :=
  let c := Char.ofNat b.toNat
  b.toNat < 128 && (c.isAlphanum || "-_.~$&+:=@".toList.contains c)

def hexDigit (n : Nat) : Char := Char.ofNat (if n < 10 then 48 + n else 55 + n)

def pathEscape (value : String) : String :=
  String.ofList (value.toUTF8.toList.flatMap (fun b =>
    if isPathSafe b then [Char.ofNat b.toNat]
    else ['%', hexDigit (b.toNat / 16), hexDigit (b.toNat % 16)]))

def isNameStart (c : Char) : Bool := c.isAlpha || c == '_'

/-- The names of the placeholders in a URL; `started` holds the name that is
being read behind a brace, newest character first. -/
def placeholders (started : Option (List Char)) : List Char → List String
  | [] => []
  | c :: rest =>
      match started with
      | none => placeholders (if c = '\x7b' then some [] else none) rest
      | some name =>
          if c = '\x7d' ∧ name ≠ [] then String.ofList name.reverse :: placeholders none rest
          else if isNameStart c ∨ (name ≠ [] ∧ c.isDigit) then placeholders (some (c :: name)) rest
          else placeholders (if c = '\x7b' then some [] else none) rest

def substitutePathParams (ctx : Context) (rawURL : String) :
    Data → Except RenderError String
  | [] => .ok rawURL
  | (key, expr) :: rest =>
      match resolveValueExpr env ctx expr with
      | .error problem => .error (.inPathParam key problem)
      | .ok none => .error (.noValue key)
      | .ok (some value) =>
          substitutePathParams ctx (rawURL.replace ("\x7b" ++ key ++ "\x7d") (pathEscape value)) rest

def queryItems (ctx : Context) (key : String) : List Value → Except RenderError (List QueryOp)
  | [] => .ok []
  | item :: rest =>
      match resolveValueExpr env ctx item with
      | .error problem => .error (.inQueryParam key problem)
      | .ok value =>
          match queryItems ctx key rest with
          | .error problem => .error problem
          | .ok later => .ok ((value.map (QueryOp.add key)).toList ++ later)

def queryParam (ctx : Context) (key : String) : Value → Except RenderError (List QueryOp)
  | .list items => queryItems env ctx key items
  | expr =>
      match resolveValueExpr env ctx expr with
      | .error problem => .error (.inQueryParam key problem)
      | .ok value => .ok (value.map (QueryOp.set key)).toList

def queryParams (ctx : Context) : Data → Except RenderError (List QueryOp)
  | [] => .ok []
  | (key, expr) :: rest =>
      match queryParam env ctx key expr with
      | .error problem => .error problem
      | .ok first =>
          match queryParams ctx rest with
          | .error problem => .error problem
          | .ok later => .ok (first ++ later)

/-- Go visits the headers in any order; the model takes theirs. -/
def renderHeaders (ctx : Context) : Data → Except RenderError (List (String × String))
  | [] => .ok []
  | (key, expr) :: rest =>
      match resolveValueExpr env ctx expr with
      | .error problem => .error (.inHeader key problem)
      | .ok value =>
          match renderHeaders ctx rest with
          | .error problem => .error problem
          | .ok later => .ok ((value.map (fun text => (key, text))).toList ++ later)

structure Rendered where
  url : String
  headers : List (String × String)

def appendQuery (ctx : Context) (rawURL : String) (params : Data) : Except RenderError String :=
  if params.isEmpty then .ok rawURL
  else
    match env.parseURL rawURL with
    | .error problem => .error (.parseURL problem)
    | .ok url =>
        match queryParams env ctx (sortedEntries params) with
        | .error problem => .error problem
        | .ok ops => .ok (env.withQuery url ops)

def renderRequest (ctx : Context) (url : String) (pathParams query headers : Data) :
    Except RenderError Rendered :=
  match substitutePathParams env ctx url (sortedEntries pathParams) with
  | .error problem => .error problem
  | .ok rawURL =>
      if placeholders none rawURL.toList ≠ [] then
        .error (.unresolvedPlaceholders (placeholders none rawURL.toList))
      else
        match appendQuery env ctx rawURL query with
        | .error problem => .error problem
        | .ok final =>
            match renderHeaders env ctx headers with
            | .error problem => .error problem
            | .ok rendered => .ok { url := final, headers := rendered }

def renderDestination (d : Destination) (ctx : Context) : Except RenderError Rendered :=
  renderRequest env ctx d.url (d.pathParams.getD []) (d.queryParams.getD []) (d.headers.getD [])

def renderLookup (l : Lookup) (ctx : Context) : Except RenderError Rendered :=
  renderRequest env ctx l.url (l.pathParams.getD []) (l.queryParams.getD []) (l.headers.getD [])

end MigrationPlatform.Template
