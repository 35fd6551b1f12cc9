/-
XML documents, what the two XML parsers make of them, and the API's sampler.

A document is given by its markup. `quickXml` is the stream of events of the
sampler's parser, which trims text and tells empty elements apart; `goTokens`
is the stream of the connector's decoder, which does neither and stops at what
it does not support: names that are not in its own table (the parameter `isName`),
other encodings, entities of the document. The sampler is translated over the
first, the connector of `Connectors.FileConnectors` reads the second.
-/

import MigrationPlatform.Batch.Manifest
import MigrationPlatform.Connectors.FileConnectors

namespace MigrationPlatform.Sampling

open MigrationPlatform.Connectors (Value Data XmlToken XmlContent simplify recordTag)

/-- A character of text as it is written: itself, a reference to a character or
to a predefined entity, or a reference to an entity of the document's own. -/
inductive RawChar
  | literal (c : Char)
  | reference (c : Char)
  | entity (name : String)
deriving DecidableEq, Repr

abbrev RawText := List RawChar

/-- The text with its references resolved, as far as either parser does that. -/
def resolve : RawText → Except String (List Char)
  | [] => .ok []
  | .literal c :: rest => (resolve rest).map (fun chars => c :: chars)
  | .reference c :: rest => (resolve rest).map (fun chars => c :: chars)
  | .entity name :: _ => .error ("unrecognized entity " ++ name)

structure Attribute where
  name : String
  value : RawText
deriving DecidableEq, Repr

/-- The content of an element, up to the end; `misc` is a comment, a document type
declaration or, with its target, a processing instruction. -/
inductive Content
  | done
  | element (name : String) (attrs : List Attribute) (body rest : Content)
  | empty (name : String) (attrs : List Attribute) (rest : Content)
  | text (raw : RawText) (rest : Content)
  | cdata (text : String) (rest : Content)
  | misc (target : Option String) (rest : Content)
deriving DecidableEq, Repr

structure Document where
  /-- What stands behind `<?xml` in the declaration. -/
  declaration : Option String := none
  content : Content
deriving DecidableEq, Repr

inductive XmlEvent
  | start (name : String) (attrs : List Attribute)
  | empty (name : String) (attrs : List Attribute)
  | finish
  | text (raw : RawText)
  | cdata (text : String)
  | other

def isWrittenSpace : RawChar → Bool
  | .literal c => Connectors.isSpace c
  | .reference _ => false
  | .entity _ => false

def trimRaw (raw : RawText) : RawText :=
  ((raw.dropWhile isWrittenSpace).reverse.dropWhile isWrittenSpace).reverse

def quickXml : Content → List XmlEvent → List XmlEvent
  | .done, tail => tail
  | .element name attrs body rest, tail =>
      .start name attrs :: quickXml body (.finish :: quickXml rest tail)
  | .empty name attrs rest, tail => .empty name attrs :: quickXml rest tail
  | .text raw rest, tail =>
      if trimRaw raw = [] then quickXml rest tail else .text (trimRaw raw) :: quickXml rest tail
  | .cdata text rest, tail => .cdata text :: quickXml rest tail
  | .misc _ rest, tail => .other :: quickXml rest tail

def sampleEvents (doc : Document) : List XmlEvent :=
  match doc.declaration with
  | none => quickXml doc.content []
  | some _ => .other :: quickXml doc.content []

def localName (name : String) : String :=
  String.ofList (name.toList.reverse.takeWhile (fun c => c != ':')).reverse

def attributeLocalName (name : String) : String :=
  match name.toList.dropWhile (fun c => c != ':') with
  | [] => name
  | _ :: rest => String.ofList rest

def attributeText (value : RawText) : String :=
  match resolve value with
  | .ok chars => String.ofList chars
  | .error _ => ""

def sampleAttributes (attrs : List Attribute) : Data :=
  attrs.foldl
    (fun fields attr =>
      fields.set ("@" ++ attributeLocalName attr.name) (.text (attributeText attr.value)))
    []

def insertFirstOnly (out : Data) (key : String) (value : Value) : Data :=
  match out.lookup key with
  | some _ => out
  | none => out.set key value

/-- A text event. The standard library's `trim` removes Unicode white space. -/
def sampleText (out : Data) (chars : List Char) : Data :=
  if Batch.trimRunes chars ≠ [] then out.set "$text" (.text (String.ofList chars)) else out

def emptyElementValue (attrs : List Attribute) : Value :=
  if (sampleAttributes attrs).isEmpty = true then .null else simplify (sampleAttributes attrs)

abbrev Behind (events : List XmlEvent) := { rest : List XmlEvent // rest.length ≤ events.length }

def decodeRecord : (events : List XmlEvent) → Data → Except String (Data × Behind events)
  | [], out => .ok (out, ⟨[], Nat.le_refl _⟩)
  | .finish :: rest, out => .ok (out, ⟨rest, Nat.le_succ _⟩)
  | .start name attrs :: rest, out =>
      match decodeRecord rest (sampleAttributes attrs) with
      | .error problem => .error problem
      | .ok (child, ⟨after, shorter⟩) =>
          (decodeRecord after (insertFirstOnly out (localName name) (simplify child))).map
            (fun decoded =>
              (decoded.1, ⟨decoded.2.1, Nat.le_succ_of_le (Nat.le_trans decoded.2.2 shorter)⟩))
  | .text raw :: rest, out =>
      match resolve raw with
      | .error problem => .error problem
      | .ok chars =>
          (decodeRecord rest (sampleText out chars)).map
            (fun decoded => (decoded.1, ⟨decoded.2.1, Nat.le_succ_of_le decoded.2.2⟩))
  | .empty name attrs :: rest, out =>
      (decodeRecord rest (insertFirstOnly out (localName name) (emptyElementValue attrs))).map
        (fun decoded => (decoded.1, ⟨decoded.2.1, Nat.le_succ_of_le decoded.2.2⟩))
  | .cdata _ :: rest, out =>
      (decodeRecord rest out).map
        (fun decoded => (decoded.1, ⟨decoded.2.1, Nat.le_succ_of_le decoded.2.2⟩))
  | .other :: rest, out =>
      (decodeRecord rest out).map
        (fun decoded => (decoded.1, ⟨decoded.2.1, Nat.le_succ_of_le decoded.2.2⟩))
termination_by events => events.length
decreasing_by all_goals simp_wf <;> omega

def readNextRecord (tag : String) : List XmlEvent → Except String (Option (Data × List XmlEvent))
  | [] => .ok none
  | .start name attrs :: rest =>
      if localName name = tag then
        match decodeRecord rest (sampleAttributes attrs) with
        | .error problem => .error problem
        | .ok (row, after) => .ok (some (row, after.1))
      else readNextRecord tag rest
  | _ :: rest => readNextRecord tag rest

/-- The loop of `sample` over input that is not truncated, with the flag that
says whether more records follow. -/
def sampleRows (tag : String) : Nat → List XmlEvent → Except String (List Data × Bool)
  | 0, events =>
      match readNextRecord tag events with
      | .error problem => .error problem
      | .ok none => .ok ([], false)
      | .ok (some _) => .ok ([], true)
  | cap + 1, events =>
      match readNextRecord tag events with
      | .error problem => .error problem
      | .ok none => .ok ([], false)
      | .ok (some (row, rest)) =>
          (sampleRows tag cap rest).map (fun result => (row :: result.1, result.2))

def sampleXml (doc : Document) (rowCap : Nat) (configuredTag : String) :
    Except String (List Data × Bool) :=
  let tag := recordTag configuredTag
  match sampleRows tag rowCap (sampleEvents doc) with
  | .error problem => .error problem
  | .ok ([], _) => .error ("no <" ++ tag ++ "> records found")
  | .ok (rows, truncated) => .ok (rows, truncated)

/-! ### The connector's decoder -/

def goLocalName (name : String) : String :=
  let space := name.toList.takeWhile (fun c => c != ':')
  let part := (name.toList.dropWhile (fun c => c != ':')).drop 1
  if space = [] ∨ part = [] then name else String.ofList part

def nsname (isName : String → Bool) (problem name : String) : Except String String :=
  if isName name = false then .error ("invalid XML name: " ++ name)
  else if 1 < name.toList.count ':' then .error problem
  else .ok (goLocalName name)

/-- Line ends as the decoder rewrites them; `returned` follows a carriage return. -/
def rewriteLines : Bool → RawText → RawText
  | _, [] => []
  | returned, .literal c :: rest =>
      if c = '\r' then .literal '\n' :: rewriteLines true rest
      else if returned = true ∧ c = '\n' then rewriteLines false rest
      else .literal c :: rewriteLines false rest
  | _, .reference c :: rest => .reference c :: rewriteLines false rest
  | _, .entity name :: rest => .entity name :: rewriteLines false rest

def readText (raw : RawText) : Except String String :=
  (resolve (rewriteLines false raw)).map String.ofList

def readAttributes (isName : String → Bool) : List Attribute → Except String (List (String × String))
  | [] => .ok []
  | attr :: rest => do
      let name ← nsname isName "expected attribute name in element" attr.name
      let value ← readText attr.value
      let others ← readAttributes isName rest
      return (name, value) :: others

def startToken (isName : String → Bool) (name : String) (attrs : List Attribute) :
    Except String XmlToken := do
  let part ← nsname isName "expected element name after <" name
  let fields ← readAttributes isName attrs
  return .startElement part fields

def miscToken (isName : String → Bool) : Option String → Except String XmlToken
  | none => .ok .other
  | some target =>
      if isName target = true then .ok .other else .error ("invalid XML name: " ++ target)

/-- The tokens of the content before those of `tail`; an error is the end. -/
def goTokens (isName : String → Bool) :
    Content → List (Except String XmlToken) → List (Except String XmlToken)
  | .done, tail => tail
  | .element name attrs body rest, tail =>
      startToken isName name attrs ::
        goTokens isName body (.ok .endElement :: goTokens isName rest tail)
  | .empty name attrs rest, tail =>
      startToken isName name attrs :: .ok .endElement :: goTokens isName rest tail
  | .text raw rest, tail => (readText raw).map XmlToken.charData :: goTokens isName rest tail
  | .cdata text rest, tail => .ok (.charData text) :: goTokens isName rest tail
  | .misc target rest, tail => miscToken isName target :: goTokens isName rest tail

def afterParam (param : List Char) : List Char → Option (List Char)
  | [] => none
  | c :: rest =>
      if param.isPrefixOf (c :: rest) = true then some ((c :: rest).drop param.length)
      else afterParam param rest

/-- The loop of `procInst`, up to a quote that follows `param` at once. -/
def quotedParam (param : List Char) : Nat → List Char → Option (Char × List Char)
  | 0, _ => none
  | fuel + 1, content =>
      match afterParam param content with
      | none => none
      | some [] => none
      | some (c :: rest) =>
          if c = '\'' ∨ c = '"' then some (c, rest) else quotedParam param fuel rest

def procInst (param content : String) : String :=
  match quotedParam (param.toList ++ ['=']) (content.length + 1) content.toList with
  | none => ""
  | some (sep, rest) =>
      if sep ∈ rest then String.ofList (rest.takeWhile (fun c => c != sep)) else ""

def declarationToken (content : String) : Except String XmlToken :=
  let ver := procInst "version" content
  let enc := procInst "encoding" content
  if ver ≠ "" ∧ ver ≠ "1.0" then
    .error ("xml: unsupported version " ++ ver.quote ++ "; only version 1.0 is supported")
  else if enc ≠ "" ∧ enc.toList.map Char.toLower ≠ "utf-8".toList then
    .error ("xml: encoding " ++ enc.quote ++ " declared but Decoder.CharsetReader is nil")
  else .ok .other

def delivered : List (Except String XmlToken) → XmlContent
  | [] => { tokens := [] }
  | .error problem :: _ => { tokens := [], err := some problem }
  | .ok token :: rest =>
      { tokens := token :: (delivered rest).tokens, err := (delivered rest).err }

def goContent (isName : String → Bool) (doc : Document) : XmlContent :=
  match doc.declaration with
  | none => delivered (goTokens isName doc.content [])
  | some content => delivered (declarationToken content :: goTokens isName doc.content [])

end MigrationPlatform.Sampling
