/-
The sample of an uploaded CSV or JSON file, and the job that reads the file.

The sampler takes the format from the end of the filename and the delimiter
from the first line; it reads the beginning of the object. The job takes the
format from the filename as well, always splits at commas, and reads JSON only
as one array. The CSV readers of both sides are scanners of `DelimitedText`; the
JSON parsers are parameters.
-/

import MigrationPlatform.Foundation.DelimitedText
import MigrationPlatform.Connectors.WatchedSource
import MigrationPlatform.Sampling.XmlMirror

namespace MigrationPlatform.Sampling

open MigrationPlatform.Connectors (Value Data Row Connector iterate CsvRead csvConnector
  JsonDecoder JsonDecode jsonConnector XmlContent xmlConnector formatFromFilename)
open DelimitedText
open Utf8 (Bytes)

def bytesText (bytes : Bytes) : String := String.ofList (bytes.map (fun b => Char.ofNat b.toNat))

/-- The columns by name, without their inferred types, and the rows. -/
structure Sample where
  columns : List String
  rows : List Data

/-- `std::str::from_utf8`, the parsers of `serde_json`, and the XML sampler. -/
structure Parsers where
  fromUtf8 : Bytes → Option String
  fromSlice : Bytes → Except String (List Value)
  fromStr : String → Except String Value
  xmlSample : Bytes → Nat → Except String Sample

def stripBom (bytes : Bytes) : Bytes :=
  if [0xEF, 0xBB, 0xBF].isPrefixOf bytes = true then bytes.drop 3 else bytes

/-! ### CSV samples -/

def candidates : List UInt8 := [44, 59, 9, 124]

def firstLine (bytes : Bytes) : Bytes :=
  ((bytes.splitOn lineFeed).find? (fun line => !line.isEmpty)).getD []

def detectDelimiter (bytes : Bytes) : UInt8 :=
  (candidates.foldl
    (fun best c =>
      if best.2 < ((firstLine bytes).count c : Int) then (c, ((firstLine bytes).count c : Int))
      else best)
    ((44, -1) : UInt8 × Int)).1

def crateRules (delimiter : UInt8) : Rules :=
  { delimiter := delimiter, crEndsLine := true, lenient := true }

def crateRecords (delimiter : UInt8) (bytes : Bytes) : List (List Bytes) :=
  (scan (crateRules delimiter) (stripBom bytes)).records

def sampleCell (record : List Bytes) (index : Nat) : Value :=
  if record[index]?.getD [] = [] then .null else .text (bytesText (record[index]?.getD []))

def sampleCsvRow (header record : List Bytes) : Data :=
  header.zipIdx.foldl
    (fun row entry => row.set (bytesText entry.1) (sampleCell record entry.2)) []

def sampleCsvRows (fromUtf8 : Bytes → Option String) (header : List Bytes) (read : Nat) :
    List (List Bytes) → Except String (List Data)
  | [] => .ok []
  | record :: rest =>
      if record.any (fun cell => (fromUtf8 cell).isNone) = true then
        .error ("csv: row " ++ toString (read + 1) ++ ": invalid UTF-8")
      else
        (sampleCsvRows fromUtf8 header (read + 1) rest).map
          (fun rows => sampleCsvRow header record :: rows)

def sampleCsv (fromUtf8 : Bytes → Option String) (bytes : Bytes) (rowCap : Nat) :
    Except String Sample :=
  if bytes = [] then .error "file is empty"
  else
    match crateRecords (detectDelimiter bytes) bytes with
    | [] => .error "csv: no header row"
    | header :: records =>
        if header.any (fun cell => (fromUtf8 cell).isNone) = true then
          .error "csv: reading header: invalid UTF-8"
        else
          (sampleCsvRows fromUtf8 header 0 (records.take rowCap)).map
            (fun rows => { columns := header.map bytesText, rows := rows })

def isAsciiWhitespace (b : UInt8) : Bool :=
  b == 0x20 || b == 0x09 || b == 0x0A || b == 0x0C || b == 0x0D

/-- One value for each line that is text, not blank and not malformed. -/
def parseNdjson (parsers : Parsers) (bytes : Bytes) : List Value :=
  (bytes.splitOn lineFeed).filterMap (fun line =>
    let s := Batch.trimSpace ((parsers.fromUtf8 line).getD "")
    if s = "" then none
    else
      match parsers.fromStr s with
      | .ok value => some value
      | .error _ => none)

def typeOf : Value → String
  | .null => "null"
  | .bool _ => "bool"
  | .number _ => "number"
  | .text _ => "string"
  | .list _ => "array"
  | .object _ => "object"

def objectRows : List Value → Except String (List Data)
  | [] => .ok []
  | .object fields :: rest => (objectRows rest).map (fun rows => fields :: rows)
  | other :: _ => .error ("json: expected object record, got " ++ typeOf other)

def unionKeys (rows : List Data) : List String :=
  rows.foldl
    (fun seen row => row.foldl
      (fun keys entry => if entry.1 ∈ keys then keys else keys ++ [entry.1]) seen)
    []

def jsonRecords (parsers : Parsers) (bytes : Bytes) : Except String (List Value) :=
  let trimmed := stripBom bytes
  if (trimmed.find? (fun b => !isAsciiWhitespace b)).getD 0 = 91 then
    match parsers.fromSlice trimmed with
    | .ok values => .ok values
    | .error problem => .error ("json: " ++ problem)
  else .ok (parseNdjson parsers trimmed)

def sampleJson (parsers : Parsers) (bytes : Bytes) (rowCap : Nat) : Except String Sample :=
  if bytes = [] then .error "file is empty"
  else
    match jsonRecords parsers bytes with
    | .error problem => .error problem
    | .ok [] => .error "json: no records"
    | .ok records =>
        (objectRows (records.take rowCap)).map
          (fun rows => { columns := unionKeys rows, rows := rows })

inductive SniffedFormat
  | csv
  | json
  | ndjson
  | xml
deriving DecidableEq, Repr

def sniffFormatFromKey (name : String) : Option SniffedFormat :=
  let lower := name.toList.map Char.toLower
  if ".csv".toList.isSuffixOf lower ∨ ".tsv".toList.isSuffixOf lower then some .csv
  else if ".json".toList.isSuffixOf lower then some .json
  else if ".ndjson".toList.isSuffixOf lower ∨ ".jsonl".toList.isSuffixOf lower then some .ndjson
  else if ".xml".toList.isSuffixOf lower then some .xml
  else none

def byteCap : Nat := 8388608

def maxRowCap : Nat := 200

def defaultRowCap : Nat := 25

def clampRows (asked : Option Nat) : Nat := max 1 (min maxRowCap (asked.getD defaultRowCap))

/-- `sample_file` for an upload, when the request names no format. The store
reports the length of the range it returns, so that the input never counts as
truncated. -/
def sampleFile (parsers : Parsers) (filename : String) (bytes : Bytes) (asked : Option Nat) :
    Except String Sample :=
  match sniffFormatFromKey filename with
  | none => .error "could not determine format; pass `format` (csv|json|xml)"
  | some .csv => sampleCsv parsers.fromUtf8 (bytes.take byteCap) (clampRows asked)
  | some .json => sampleJson parsers (bytes.take byteCap) (clampRows asked)
  | some .ndjson => sampleJson parsers (bytes.take byteCap) (clampRows asked)
  | some .xml => parsers.xmlSample (bytes.take byteCap) (clampRows asked)

/-- The reader of `encoding/csv`, on text with normalized line ends. -/
def goRules (delimiter : UInt8) : Rules :=
  { delimiter := delimiter, crEndsLine := false, lenient := false }

def strayText : Stray → String
  | .bareQuote => "bare \" in non-quoted-field"
  | .quotedField => "extraneous or missing \" in quoted-field"

structure CsvContent where
  records : List (List String)
  err : Option String := none

def CsvContent.read (content : CsvContent) : CsvRead CsvContent :=
  match content.records with
  | [] =>
      match content.err with
      | none => .eof content
      | some message => .failed message
  | record :: rest => .record record { content with records := rest }

def goCsv (delimiter : UInt8) (bytes : Bytes) : CsvContent :=
  let read := scan (goRules delimiter) (normalizeLines bytes)
  { records := read.records.map (List.map bytesText), err := read.problem.map strayText }

structure Decoders where
  json : JsonDecoder Bytes
  xml : Bytes → XmlContent

def ReadsAlike {Iter : Type} (connector : Connector Iter) (sampled : List Data) : Prop :=
  ∃ count rows, iterate connector count = (rows, .done) ∧
    List.Forall₂ SameColumns sampled ((rows.map Row.data).take sampled.length)

def JobReads (decoders : Decoders) (filename : String) (bytes : Bytes) (sampled : List Data) :
    Prop :=
  match formatFromFilename filename with
  | .csv => ReadsAlike (csvConnector CsvContent.read (some true) (goCsv 44 bytes)).toConnector sampled
  | .json => ReadsAlike (jsonConnector decoders.json bytes).toConnector sampled
  | .xml => ReadsAlike (xmlConnector "" (decoders.xml bytes)).toConnector sampled

end MigrationPlatform.Sampling
