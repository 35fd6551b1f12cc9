/-
Watched objects from their discovery to the source check of `Ingest`.

A watch run lists objects of the store or of an SFTP server, stages the latter
in the store, and registers each object with a version token and a size. Every
batch then compares the registered token and size with those the store reports.
The store's ETag is a parameter, a function of the bytes; the token of a staged
object is the fingerprint of the file it came from.
-/

import MigrationPlatform.Connectors.Ingest
import MigrationPlatform.Foundation.KeyedTable
import MigrationPlatform.Foundation.Utf8

namespace MigrationPlatform.Connectors

open KeyedTable
open Utf8 (Bytes)

structure Location where
  orgID : Int
  bucket : String
  key : String
deriving DecidableEq, Repr

structure SourceRow where
  id : Nat
  location : Location
  etag : Option String
  size : Option Nat
deriving DecidableEq, Repr

structure NewSource where
  location : Location
  etag : String
  size : Nat

structure SourceRegistry where
  rows : List SourceRow := []
  nextID : Nat := 1
  positive : 0 < nextID ∧ ∀ row ∈ rows, 0 < row.id
  below : ∀ row ∈ rows, row.id < nextID
  distinct : (rows.map SourceRow.id).Nodup

def SourceRegistry.empty : SourceRegistry where
  positive := ⟨by decide, fun _ absent => absurd absent List.not_mem_nil⟩
  below := fun _ absent => absurd absent List.not_mem_nil
  distinct := List.nodup_nil

def NewSource.registeredETag (s : NewSource) : Option String :=
  if s.etag = "" then none else some s.etag

def NewSource.registeredSize (s : NewSource) : Option Nat :=
  if s.size = 0 then none else some s.size

def NewSource.inserted (s : NewSource) (id : Nat) : SourceRow :=
  { id := id, location := s.location, etag := s.registeredETag, size := s.registeredSize }

def NewSource.updated (s : NewSource) (old : SourceRow) : SourceRow :=
  { old with
    etag := s.registeredETag.or old.etag
    size := s.registeredSize.or old.size }

def SourceRegistry.at (registry : SourceRegistry) (location : Location) : Option SourceRow :=
  lookup SourceRow.location location registry.rows

def SourceRegistry.byID (registry : SourceRegistry) (id : Nat) : Option SourceRow :=
  lookup SourceRow.id id registry.rows

theorem ids_of_known {rows : List SourceRow} {s : NewSource} {id : Nat}
    (known : s.location ∈ rows.map SourceRow.location) :
    (upsert SourceRow.location (s.inserted id) s.updated rows).map SourceRow.id =
      rows.map SourceRow.id := by
  have keeps : ∀ old, (s.updated old).id = old.id := fun _ => rfl
  exact map_upsert_of_mem keeps rows known

variable {registry : SourceRegistry}

theorem mem_upsert_cases {s : NewSource} {row : SourceRow}
    (member : row ∈ upsert SourceRow.location (s.inserted registry.nextID) s.updated
      registry.rows) :
    row.id = registry.nextID ∨ row.id ∈ registry.rows.map SourceRow.id := by
  by_cases known : s.location ∈ registry.rows.map SourceRow.location
  · right
    rw [← @ids_of_known registry.rows s registry.nextID known]
    exact List.mem_map.mpr ⟨row, member, rfl⟩
  · rw [upsert_of_not_mem registry.rows known] at member
    rcases List.mem_append.mp member with old | new
    · right
      exact List.mem_map.mpr ⟨row, old, rfl⟩
    · left
      rw [List.mem_singleton.mp new]
      rfl

/-- `registerSource`. The sequence also moves on when the row exists. -/
def SourceRegistry.register (registry : SourceRegistry) (s : NewSource) : SourceRegistry where
  rows := upsert SourceRow.location (s.inserted registry.nextID) s.updated registry.rows
  nextID := registry.nextID + 1
  positive := by
    constructor
    · omega
    · intro row member
      rcases mem_upsert_cases member with new | old
      · rw [new]
        exact registry.positive.1
      · obtain ⟨before, present, same⟩ := List.mem_map.mp old
        rw [← same]
        exact registry.positive.2 before present
  below := by
    intro row member
    rcases mem_upsert_cases member with new | old
    · omega
    · obtain ⟨before, present, same⟩ := List.mem_map.mp old
      have bound := registry.below before present
      omega
  distinct := by
    by_cases known : s.location ∈ registry.rows.map SourceRow.location
    · rw [ids_of_known known]
      exact registry.distinct
    · rw [upsert_of_not_mem registry.rows known, List.map_append]
      apply List.nodup_append.mpr
      refine ⟨registry.distinct, List.nodup_cons.mpr ⟨List.not_mem_nil, List.nodup_nil⟩, ?_⟩
      intro id old fresh new
      obtain ⟨before, present, same⟩ := List.mem_map.mp old
      have bound := registry.below before present
      have assigned : fresh = registry.nextID := List.mem_singleton.mp new
      omega

theorem register_at_self (registry : SourceRegistry) (s : NewSource) :
    (registry.register s).at s.location =
      some (((registry.at s.location).map s.updated).getD (s.inserted registry.nextID)) := by
  have keeps : ∀ old, (s.updated old).location = old.location := fun _ => rfl
  change lookup SourceRow.location (s.inserted registry.nextID).location
    (upsert SourceRow.location (s.inserted registry.nextID) s.updated registry.rows) = _
  rw [lookup_upsert_self keeps registry.rows]
  rfl

private theorem register_at_other {s : NewSource} {location : Location}
    (other : location ≠ s.location) :
    (registry.register s).at location = registry.at location := by
  have keeps : ∀ old, (s.updated old).location = old.location := fun _ => rfl
  exact lookup_upsert_other keeps other registry.rows

private theorem byID_of_at {location : Location} {row : SourceRow}
    (found : registry.at location = some row) : registry.byID row.id = some row :=
  lookup_of_mem registry.distinct (mem_of_lookup found).1

structure ObjectInfo where
  etag : String
  size : Nat
deriving DecidableEq, Repr

/-- The token of a remote file: SFTP has no ETag. -/
def sftpFingerprint (modTime : Int) (size : Nat) : String :=
  toString modTime ++ ":" ++ toString size

/-- How a watched object came into the store: it is listed there, or it was
staged from a remote file of that modification time. -/
inductive Arrival
  | listed
  | staged (modTime now : Int)

structure WatchedObject where
  location : Location
  bytes : Bytes
  arrival : Arrival

section Watch

-- the ETag that the store reports for stored bytes, without quotes
variable (etagOf : Bytes → String)

def objectInfo (bytes : Bytes) : ObjectInfo :=
  { etag := etagOf bytes, size := bytes.length }

/-- What `ListSftpObjects` reports of a remote file. `DownloadSftpFile` takes
only a file that still has this fingerprint and size. -/
def sftpObjectInfo (modTime : Int) (bytes : Bytes) : ObjectInfo :=
  { etag := sftpFingerprint modTime bytes.length, size := bytes.length }

/-- The token and size that `StageSftpObject` returns for a file it was given
and of which it downloaded so many bytes. -/
def stageSftpObject (given : ObjectInfo) (downloaded : Nat) (now : Int) : ObjectInfo :=
  let size := if given.size = 0 then downloaded else given.size
  { etag := if given.etag = "" then sftpFingerprint now size else given.etag, size := size }

def watchItem (object : WatchedObject) : ObjectInfo :=
  match object.arrival with
  | .listed => objectInfo etagOf object.bytes
  | .staged modTime now =>
      stageSftpObject (sftpObjectInfo modTime object.bytes) object.bytes.length now

inductive SourceRefusal
  | notAuthorized (message : String)
  | sourceChanged (message : String)
  | other (message : String)
deriving DecidableEq, Repr

def pathSegments : List Char → List (List Char)
  | [] => [[]]
  | char :: rest =>
      if char = '/' then [] :: pathSegments rest
      else
        match pathSegments rest with
        | [] => [[char]]
        | segment :: others => (char :: segment) :: others

def orgObjectPrefix (orgID : Int) : String := "orgs/" ++ toString orgID ++ "/"

def checkOrgLocation (allowedBuckets : List String) (location : Location) : Option SourceRefusal :=
  let path := location.key.toList.dropWhile (fun char => decide (char = '/'))
  if location.orgID ≤ 0 then
    some (.notAuthorized ("object location " ++ location.bucket ++ "/" ++ location.key ++
      " has no owning organization"))
  else if location.bucket ∉ allowedBuckets then
    some (.notAuthorized ("bucket " ++ location.bucket.quote ++
      " is not allowed for watched or staged objects (see WATCH_ALLOWED_BUCKETS)"))
  else if '\\' ∈ path ∨ ['.', '.'] ∈ pathSegments path then
    some (.notAuthorized ("object location " ++ location.key.quote ++ " is not a clean path"))
  else if (orgObjectPrefix location.orgID).toList.isPrefixOf path = false then
    some (.notAuthorized ("object location " ++ location.key.quote ++ " is outside " ++
      orgObjectPrefix location.orgID))
  else none

def allowedBucketsFromEnv (platform : String) (watched : List String) : List String :=
  (if platform = "" then "migration" else platform) ::
    watched.filter (fun bucket => decide (bucket ≠ ""))

def WatchedObject.source (object : WatchedObject) : NewSource :=
  { location := object.location
    etag := (watchItem etagOf object).etag
    size := (watchItem etagOf object).size }

def startWatchObjectJob (allowedBuckets : List String) (registry : SourceRegistry)
    (object : WatchedObject) : Except SourceRefusal (SourceRegistry × Nat) :=
  match checkOrgLocation allowedBuckets object.location with
  | some refusal => .error refusal
  | none =>
      let registered := registry.register (object.source etagOf)
      .ok (registered, ((registered.at object.location).map SourceRow.id).getD 0)

def watchRuns (allowedBuckets : List String) (registry : SourceRegistry)
    (objects : List WatchedObject) : SourceRegistry :=
  objects.foldl (fun current object =>
    match startWatchObjectJob etagOf allowedBuckets current object with
    | .ok (registered, _) => registered
    | .error _ => current) registry

end Watch

/-! ### The check of a batch -/

inductive SourceFormat
  | csv
  | json
  | xml
deriving DecidableEq, Repr

def formatFromFilename (name : String) : SourceFormat :=
  let lower := name.toList.map Char.toLower
  if ".csv".toList.isSuffixOf lower ∨ ".tsv".toList.isSuffixOf lower then .csv
  else if ".json".toList.isSuffixOf lower ∨ ".ndjson".toList.isSuffixOf lower ∨
      ".jsonl".toList.isSuffixOf lower then .json
  else if ".xml".toList.isSuffixOf lower then .xml
  else .csv

inductive ConnectorKind
  | format (format : SourceFormat)
  | salesforce
  | other (kind : String)
deriving DecidableEq, Repr

structure IngestInput where
  orgID : Int
  connectorID : Int := 0
  kind : ConnectorKind
  connectorSecret : String := ""
  config : Data
  sourceID : Nat := 0
  expectedSourceVersion : String := ""

structure AuthorizedSource where
  kind : ConnectorKind
  config : Data
  secret : String := ""
  version : String := ""

def textField (config : Data) (name : String) : String :=
  match config.lookup name with
  | some (.text value) => value
  | _ => ""

section Authorize

variable (registry : SourceRegistry) (stat : Location → Except String ObjectInfo)

def objectSource (input : IngestInput) (location : Location) :
    Except SourceRefusal AuthorizedSource :=
  match input.kind with
  | .format _ =>
      match ["url", "path"].find? (fun name => (input.config.lookup name).isSome) with
      | some name =>
          .error (.notAuthorized ("object sources cannot also set " ++ name.quote))
      | none =>
          let source := if input.sourceID > 0 then
              (registry.byID input.sourceID).filter
                (fun row => decide (row.location.orgID = input.orgID))
            else registry.at location
          match source with
          | none =>
              .error (.notAuthorized ("source " ++ location.bucket ++ "/" ++ location.key ++
                " is not registered for org " ++ toString input.orgID))
          | some row =>
              if row.location.bucket ≠ location.bucket ∨ row.location.key ≠ location.key then
                .error (.notAuthorized ("source " ++ toString row.id ++ " does not name " ++
                  location.bucket ++ "/" ++ location.key))
              else
                match stat location with
                | .error message =>
                    .error (.other ("stat source " ++ toString row.id ++ ": " ++ message))
                | .ok info =>
                    let etag := row.etag.getD ""
                    let size := row.size.getD 0
                    if etag ≠ "" ∧ info.etag ≠ etag then
                      .error (.sourceChanged ("source " ++ toString row.id ++
                        " changed since registration (etag " ++ etag ++ ", now " ++ info.etag ++
                        ")"))
                    else if size > 0 ∧ info.size ≠ size then
                      .error (.sourceChanged ("source " ++ toString row.id ++
                        " changed since registration (size " ++ toString size ++ ", now " ++
                        toString info.size ++ ")"))
                    else
                      .ok { kind := input.kind, config := input.config, version := info.etag }
  | .salesforce => .error (.notAuthorized "unsupported object format \"salesforce\"")
  | .other kind => .error (.notAuthorized ("unsupported object format " ++ kind.quote))

/-- `authorize`. Stored connectors are checked elsewhere, by `connectorSource`. -/
def authorize (connectorSource : IngestInput → Except SourceRefusal AuthorizedSource)
    (allowLocalPaths : Bool) (input : IngestInput) : Except SourceRefusal AuthorizedSource :=
  if input.connectorID > 0 then connectorSource input
  else if input.kind = .salesforce ∨ input.connectorSecret ≠ "" then
    .error (.notAuthorized ("connector sources must reference a stored connector; " ++
      "inline credentials are not accepted"))
  else if textField input.config "s3_bucket" ≠ "" ∧ textField input.config "s3_key" ≠ "" then
    objectSource registry stat input
      { orgID := input.orgID
        bucket := textField input.config "s3_bucket"
        key := textField input.config "s3_key" }
  else if (input.config.lookup "path").isSome = true then
    if allowLocalPaths = false then
      .error (.notAuthorized
        "local file sources are disabled (ALLOW_LOCAL_SOURCE_PATHS is not set)")
    else .ok { kind := input.kind, config := input.config }
  else .error (.notAuthorized "source is not a registered object or stored connector")

def ingestSource (connectorSource : IngestInput → Except SourceRefusal AuthorizedSource)
    (allowLocalPaths : Bool) (input : IngestInput) : Except SourceRefusal AuthorizedSource :=
  match authorize registry stat connectorSource allowLocalPaths input with
  | .error refusal => .error refusal
  | .ok source =>
      if input.expectedSourceVersion ≠ "" ∧ source.version ≠ input.expectedSourceVersion then
        .error (.sourceChanged ("source changed during the job (read version " ++
          input.expectedSourceVersion ++ ", now " ++ source.version ++ ")"))
      else .ok source

end Authorize

/-- The input of a batch of a watch job: `extractConnector` of the source
reference that `WatchPrefixWorkflow` passes on. -/
def watchIngestInput (object : WatchedObject) (filename : String) (sourceID : Nat)
    (expectedSourceVersion : String) : IngestInput :=
  { orgID := object.location.orgID
    kind := .format (formatFromFilename filename)
    config :=
      [("s3_bucket", .text object.location.bucket), ("s3_key", .text object.location.key)] ++
        (if formatFromFilename filename = .csv then
          [("header", .bool true), ("delimiter", .text ",")] else [])
    sourceID := sourceID
    expectedSourceVersion := expectedSourceVersion }

def SourceRegistry.etagAt (registry : SourceRegistry) (location : Location) : String :=
  ((registry.at location).bind SourceRow.etag).getD ""

def SourceRegistry.sizeAt (registry : SourceRegistry) (location : Location) : Nat :=
  ((registry.at location).bind SourceRow.size).getD 0

def SourceRegistry.idAt (registry : SourceRegistry) (location : Location) : Option Nat :=
  (registry.at location).map SourceRow.id

def lastToken (etagOf : Bytes → String) (location : Location) :
    List WatchedObject → String → String
  | [], before => before
  | object :: rest, before =>
      lastToken etagOf location rest
        (if object.location = location ∧ (watchItem etagOf object).etag ≠ "" then
          (watchItem etagOf object).etag else before)

def lastSize (etagOf : Bytes → String) (location : Location) : List WatchedObject → Nat → Nat
  | [], before => before
  | object :: rest, before =>
      lastSize etagOf location rest
        (if object.location = location ∧ (watchItem etagOf object).size ≠ 0 then
          (watchItem etagOf object).size else before)

theorem registeredETag_or (s : NewSource) (before : Option String) :
    (s.registeredETag.or before).getD "" = if s.etag ≠ "" then s.etag else before.getD "" := by
  unfold NewSource.registeredETag
  by_cases empty : s.etag = ""
  · rw [if_pos empty, if_neg (not_not_intro empty)]
    rfl
  · rw [if_neg empty, if_pos empty]
    rfl

theorem registeredSize_or (s : NewSource) (before : Option Nat) :
    (s.registeredSize.or before).getD 0 = if s.size ≠ 0 then s.size else before.getD 0 := by
  unfold NewSource.registeredSize
  by_cases empty : s.size = 0
  · rw [if_pos empty, if_neg (not_not_intro empty)]
    rfl
  · rw [if_neg empty, if_pos empty]
    rfl

private theorem etagAt_register (registry : SourceRegistry) (s : NewSource) :
    (registry.register s).etagAt s.location =
      if s.etag ≠ "" then s.etag else registry.etagAt s.location := by
  unfold SourceRegistry.etagAt
  rw [register_at_self]
  cases registry.at s.location with
  | none =>
      have first := registeredETag_or s none
      rw [Option.or_none] at first
      exact first
  | some row => exact registeredETag_or s row.etag

private theorem sizeAt_register (registry : SourceRegistry) (s : NewSource) :
    (registry.register s).sizeAt s.location =
      if s.size ≠ 0 then s.size else registry.sizeAt s.location := by
  unfold SourceRegistry.sizeAt
  rw [register_at_self]
  cases registry.at s.location with
  | none =>
      have first := registeredSize_or s none
      rw [Option.or_none] at first
      exact first
  | some row => exact registeredSize_or s row.size

private theorem idAt_register {s : NewSource} {id : Nat}
    (known : registry.idAt s.location = some id) :
    (registry.register s).idAt s.location = some id := by
  unfold SourceRegistry.idAt at known ⊢
  obtain ⟨row, found, same⟩ := Option.map_eq_some_iff.mp known
  rw [register_at_self, found]
  exact congrArg some same

section Runs

variable {etagOf : Bytes → String} {allowedBuckets : List String} {location : Location}

structure Registers (etagOf : Bytes → String) (location : Location) (object : WatchedObject)
    (before after : SourceRegistry) : Prop where
  etag : after.etagAt location =
    if object.location = location ∧ (watchItem etagOf object).etag ≠ "" then
      (watchItem etagOf object).etag else before.etagAt location
  size : after.sizeAt location =
    if object.location = location ∧ (watchItem etagOf object).size ≠ 0 then
      (watchItem etagOf object).size else before.sizeAt location
  id : ∀ id, before.idAt location = some id → after.idAt location = some id

theorem register_registers (registry : SourceRegistry) (object : WatchedObject) :
    Registers etagOf location object registry (registry.register (object.source etagOf)) := by
  by_cases here : object.location = location
  · subst here
    constructor
    · simp only [true_and]
      exact etagAt_register registry (object.source etagOf)
    · simp only [true_and]
      exact sizeAt_register registry (object.source etagOf)
    · intro id known
      exact idAt_register known
  · have same : (registry.register (object.source etagOf)).at location = registry.at location :=
      register_at_other (fun found => here found.symm)
    constructor
    · unfold SourceRegistry.etagAt
      rw [same, if_neg (fun both => here both.1)]
    · unfold SourceRegistry.sizeAt
      rw [same, if_neg (fun both => here both.1)]
    · intro id known
      unfold SourceRegistry.idAt
      rw [same]
      exact known

private theorem refused_registers {object : WatchedObject}
    {refusal : SourceRefusal} (allowed : checkOrgLocation allowedBuckets location = none)
    (refused : checkOrgLocation allowedBuckets object.location = some refusal) :
    Registers etagOf location object registry registry := by
  have elsewhere : object.location ≠ location := by
    intro here
    rw [here, allowed] at refused
    cases refused
  constructor
  · rw [if_neg (fun both => elsewhere both.1)]
  · rw [if_neg (fun both => elsewhere both.1)]
  · intro id known
    exact known

theorem watchRuns_entry (allowed : checkOrgLocation allowedBuckets location = none)
    (objects : List WatchedObject) :
    ∀ registry : SourceRegistry,
      (watchRuns etagOf allowedBuckets registry objects).etagAt location =
          lastToken etagOf location objects (registry.etagAt location) ∧
        (watchRuns etagOf allowedBuckets registry objects).sizeAt location =
          lastSize etagOf location objects (registry.sizeAt location) ∧
        ∀ id, registry.idAt location = some id →
          (watchRuns etagOf allowedBuckets registry objects).idAt location = some id := by
  induction objects with
  | nil =>
      intro registry
      exact ⟨rfl, rfl, fun _ known => known⟩
  | cons object rest ih =>
      intro registry
      have step : ∃ after, watchRuns etagOf allowedBuckets registry (object :: rest) =
          watchRuns etagOf allowedBuckets after rest ∧
            Registers etagOf location object registry after := by
        cases checked : checkOrgLocation allowedBuckets object.location with
        | some refusal =>
            refine ⟨registry, ?_, refused_registers allowed checked⟩
            simp only [watchRuns, List.foldl_cons, startWatchObjectJob, checked]
        | none =>
            refine ⟨registry.register (object.source etagOf), ?_,
              register_registers registry object⟩
            simp only [watchRuns, List.foldl_cons, startWatchObjectJob, checked]
      obtain ⟨after, same, registers⟩ := step
      obtain ⟨etag, size, kept⟩ := ih after
      rw [same]
      refine ⟨?_, ?_, ?_⟩
      · rw [etag, registers.etag]
        rfl
      · rw [size, registers.size]
        rfl
      · intro id known
        exact kept id (registers.id id known)

end Runs

/-! ### Ingestible objects -/

theorem key_ne_empty_of_allowed {allowedBuckets : List String} {location : Location}
    (allowed : checkOrgLocation allowedBuckets location = none) : location.key ≠ "" := by
  intro empty
  unfold checkOrgLocation at allowed
  rw [empty] at allowed
  simp only at allowed
  split at allowed
  · cases allowed
  · split at allowed
    · cases allowed
    · split at allowed
      · cases allowed
      · split at allowed
        · cases allowed
        · rename_i outside
          apply outside
          change (orgObjectPrefix location.orgID).toList.isPrefixOf [] = false
          unfold orgObjectPrefix
          simp only [String.toList_append]
          rfl

private theorem bucket_ne_empty_of_allowed {platform : String} {watched : List String}
    {location : Location}
    (allowed : checkOrgLocation (allowedBucketsFromEnv platform watched) location = none) :
    location.bucket ≠ "" := by
  have member : location.bucket ∈ allowedBucketsFromEnv platform watched := by
    by_contra absent
    unfold checkOrgLocation at allowed
    simp only at allowed
    rw [if_pos absent] at allowed
    split at allowed
    · cases allowed
    · cases allowed
  intro empty
  rw [empty] at member
  unfold allowedBucketsFromEnv at member
  rcases List.mem_cons.mp member with named | listed
  · split at named
    · have different : "" ≠ "migration" := by decide
      exact different named
    · rename_i given
      exact given named.symm
  · have nonempty := List.of_mem_filter listed
    exact of_decide_eq_true nonempty rfl

theorem objectSource_watched {object : WatchedObject}
    {filename expected : String} {row : SourceRow} {info : ObjectInfo}
    {stat : Location → Except String ObjectInfo} (found : registry.at object.location = some row)
    (reported : stat object.location = .ok info) :
    objectSource registry stat (watchIngestInput object filename row.id expected) object.location =
      if row.etag.getD "" ≠ "" ∧ info.etag ≠ row.etag.getD "" then
        .error (.sourceChanged ("source " ++ toString row.id ++
          " changed since registration (etag " ++ row.etag.getD "" ++ ", now " ++ info.etag ++ ")"))
      else if row.size.getD 0 > 0 ∧ info.size ≠ row.size.getD 0 then
        .error (.sourceChanged ("source " ++ toString row.id ++
          " changed since registration (size " ++ toString (row.size.getD 0) ++ ", now " ++
          toString info.size ++ ")"))
      else
        .ok { kind := (watchIngestInput object filename row.id expected).kind
              config := (watchIngestInput object filename row.id expected).config
              version := info.etag } := by
  obtain ⟨member, location⟩ := mem_of_lookup found
  have positive := registry.positive.2 row member
  have noExtra : ["url", "path"].find? (fun name =>
      ((watchIngestInput object filename row.id expected).config.lookup name).isSome) = none := by
    unfold watchIngestInput
    by_cases csv : formatFromFilename filename = .csv
    · simp only [csv, if_true]
      rfl
    · simp only [csv, if_false]
      rfl
  have loaded : (if (watchIngestInput object filename row.id expected).sourceID > 0 then
        (registry.byID (watchIngestInput object filename row.id expected).sourceID).filter
          (fun stored => decide (stored.location.orgID =
            (watchIngestInput object filename row.id expected).orgID))
      else registry.at object.location) = some row := by
    change (if 0 < row.id then (registry.byID row.id).filter
        (fun stored => decide (stored.location.orgID = object.location.orgID))
      else registry.at object.location) = some row
    rw [if_pos positive, byID_of_at found]
    simp only [Option.filter_some, location, decide_true, if_true]
  unfold objectSource
  simp only [noExtra, loaded]
  rw [if_neg (by rw [location]; simp)]
  simp only [reported]
  rfl

theorem ingestSource_watched {platform : String} {watched : List String}
    {object : WatchedObject} {filename expected : String}
    {sourceID : Nat} {stat : Location → Except String ObjectInfo}
    {connectorSource : IngestInput → Except SourceRefusal AuthorizedSource}
    {allowLocalPaths : Bool}
    (allowed : checkOrgLocation (allowedBucketsFromEnv platform watched) object.location = none) :
    ingestSource registry stat connectorSource allowLocalPaths
        (watchIngestInput object filename sourceID expected) =
      match objectSource registry stat (watchIngestInput object filename sourceID expected)
          object.location with
      | .error refusal => .error refusal
      | .ok source =>
          if expected ≠ "" ∧ source.version ≠ expected then
            .error (.sourceChanged ("source changed during the job (read version " ++ expected ++
              ", now " ++ source.version ++ ")"))
          else .ok source := by
  have bucket := bucket_ne_empty_of_allowed allowed
  have key := key_ne_empty_of_allowed allowed
  have noConnector : ¬(watchIngestInput object filename sourceID expected).connectorID > 0 :=
    Int.lt_irrefl 0
  have noSecret : ¬((watchIngestInput object filename sourceID expected).kind = .salesforce ∨
      (watchIngestInput object filename sourceID expected).connectorSecret ≠ "") := by
    rintro (salesforce | secret)
    · cases salesforce
    · exact secret rfl
  unfold ingestSource authorize
  rw [if_neg noConnector, if_neg noSecret, if_pos ⟨bucket, key⟩]
  rfl

theorem batches_accepted_iff {etagOf : Bytes → String} {platform : String} {watched : List String}
    {object : WatchedObject} {filename : String} {row : SourceRow}
    {stat : Location → Except String ObjectInfo}
    {connectorSource : IngestInput → Except SourceRefusal AuthorizedSource}
    {allowLocalPaths : Bool}
    (allowed : checkOrgLocation (allowedBucketsFromEnv platform watched) object.location = none)
    (found : registry.at object.location = some row)
    (unchanged : stat object.location = .ok (objectInfo etagOf object.bytes)) :
    (∀ expected, expected = "" ∨ expected = etagOf object.bytes →
        ∃ source, ingestSource registry stat connectorSource allowLocalPaths
          (watchIngestInput object filename row.id expected) = .ok source) ↔
      (row.etag.getD "" = "" ∨ row.etag.getD "" = etagOf object.bytes) ∧
        (row.size.getD 0 = 0 ∨ row.size.getD 0 = object.bytes.length) := by
  constructor
  · intro accepted
    obtain ⟨source, passes⟩ := accepted "" (Or.inl rfl)
    rw [ingestSource_watched allowed, objectSource_watched found unchanged] at passes
    by_cases token : row.etag.getD "" ≠ "" ∧
        (objectInfo etagOf object.bytes).etag ≠ row.etag.getD ""
    · rw [if_pos token] at passes
      cases passes
    · rw [if_neg token] at passes
      by_cases size : row.size.getD 0 > 0 ∧
          (objectInfo etagOf object.bytes).size ≠ row.size.getD 0
      · rw [if_pos size] at passes
        cases passes
      · constructor
        · by_cases empty : row.etag.getD "" = ""
          · left
            exact empty
          · right
            by_contra different
            exact token ⟨empty, fun same => different same.symm⟩
        · change ¬(row.size.getD 0 > 0 ∧ object.bytes.length ≠ row.size.getD 0) at size
          omega
  · rintro ⟨tokenMatches, sizeMatches⟩ expected version
    have token : ¬(row.etag.getD "" ≠ "" ∧
        (objectInfo etagOf object.bytes).etag ≠ row.etag.getD "") := by
      rintro ⟨nonempty, different⟩
      rcases tokenMatches with empty | same
      · exact nonempty empty
      · exact different same.symm
    have size : ¬(row.size.getD 0 > 0 ∧
        (objectInfo etagOf object.bytes).size ≠ row.size.getD 0) := by
      change ¬(row.size.getD 0 > 0 ∧ object.bytes.length ≠ row.size.getD 0)
      omega
    have current : ¬(expected ≠ "" ∧ (objectInfo etagOf object.bytes).etag ≠ expected) := by
      rintro ⟨given, different⟩
      rcases version with empty | same
      · exact given empty
      · exact different same.symm
    rw [ingestSource_watched allowed, objectSource_watched found unchanged, if_neg token,
      if_neg size]
    exact ⟨_, if_neg current⟩

/-- The token and the size on record at a location, once an object has been
registered there and further watch runs have followed, are those of its bytes. -/
def RegisteredAsStored (etagOf : Bytes → String) (registry : SourceRegistry)
    (object : WatchedObject) (later : List WatchedObject) : Prop :=
  let token := lastToken etagOf object.location (object :: later) (registry.etagAt object.location)
  let size := lastSize etagOf object.location (object :: later) (registry.sizeAt object.location)
  (token = "" ∨ token = etagOf object.bytes) ∧ (size = 0 ∨ size = object.bytes.length)

/-- For every watched object that `StartWatchObjectJob` registers, whatever was
registered before and whatever watch runs follow, and which keeps its bytes in
the store: every batch of its job accepts the source exactly when the last
token and size on record are those of its bytes. -/
theorem watched_object_ingestible_iff (etagOf : Bytes → String) (platform : String)
    (watched : List String) (registry registered : SourceRegistry) (object : WatchedObject)
    (later : List WatchedObject) (sourceID : Nat) (filename : String)
    (stat : Location → Except String ObjectInfo)
    (connectorSource : IngestInput → Except SourceRefusal AuthorizedSource)
    (allowLocalPaths : Bool)
    (started : startWatchObjectJob etagOf (allowedBucketsFromEnv platform watched) registry object =
      .ok (registered, sourceID))
    (unchanged : stat object.location = .ok (objectInfo etagOf object.bytes)) :
    (∀ expected, expected = "" ∨ expected = etagOf object.bytes →
        ∃ source, ingestSource
          (watchRuns etagOf (allowedBucketsFromEnv platform watched) registered later) stat
          connectorSource allowLocalPaths (watchIngestInput object filename sourceID expected) =
            .ok source) ↔
      RegisteredAsStored etagOf registry object later := by
  unfold startWatchObjectJob at started
  cases allowed : checkOrgLocation (allowedBucketsFromEnv platform watched) object.location with
  | some refusal =>
      rw [allowed] at started
      cases started
  | none =>
      rw [allowed] at started
      cases started
      have first : Registers etagOf object.location object registry
          (registry.register (object.source etagOf)) := register_registers registry object
      obtain ⟨entry, entered⟩ : ∃ row,
          (registry.register (object.source etagOf)).at object.location = some row :=
        ⟨_, register_at_self registry (object.source etagOf)⟩
      obtain ⟨etag, size, kept⟩ := watchRuns_entry allowed later
        (registry.register (object.source etagOf))
      have id := kept entry.id (by unfold SourceRegistry.idAt; rw [entered]; rfl)
      obtain ⟨row, found, sameID⟩ := Option.map_eq_some_iff.mp id
      rw [first.etag] at etag
      rw [first.size] at size
      unfold SourceRegistry.etagAt at etag
      unfold SourceRegistry.sizeAt at size
      rw [found] at etag size
      rw [entered, Option.map_some, Option.getD_some, ← sameID,
        batches_accepted_iff allowed found unchanged]
      change ((row.etag.getD "" = "" ∨ _) ∧ (row.size.getD 0 = 0 ∨ _)) ↔ _
      rw [show row.etag.getD "" = _ from etag, show row.size.getD 0 = _ from size]
      rfl

/-! ### Two ways to arrive -/

def ordersFile : Bytes := [105, 100, 10, 49, 10]

def ordersETag : Bytes → String := fun _ => "bc9280dfc1d4e67233f138f5bbbf0951"

def ordersObject (arrival : Arrival) : WatchedObject :=
  { location := { orgID := 3, bucket := "migration", key := "orgs/3/in/orders.csv" }
    bytes := ordersFile
    arrival := arrival }

theorem listed_object_ingestible :
    ∃ registered, startWatchObjectJob ordersETag (allowedBucketsFromEnv "" []) .empty
        (ordersObject .listed) = .ok (registered, 1) ∧
      ∃ source, ingestSource registered (fun _ => .ok (objectInfo ordersETag ordersFile))
        (fun _ => .error (.other "no connector")) false
        (watchIngestInput (ordersObject .listed) "orders.csv" 1 "") = .ok source := by
  refine ⟨_, rfl, ?_⟩
  refine (watched_object_ingestible_iff ordersETag "" [] .empty _ (ordersObject .listed) [] 1
    "orders.csv" (fun _ => .ok (objectInfo ordersETag ordersFile))
    (fun _ => .error (.other "no connector")) false rfl rfl).mpr ?_ "" (Or.inl rfl)
  exact ⟨Or.inr rfl, Or.inr rfl⟩

/-- The same bytes staged from SFTP: registered with the fingerprint of the
remote file, they are refused as changed. -/
theorem staged_object_refused :
    ∃ registered, startWatchObjectJob ordersETag (allowedBucketsFromEnv "" []) .empty
        (ordersObject (.staged 1700000000 1700000100)) = .ok (registered, 1) ∧
      ingestSource registered (fun _ => .ok (objectInfo ordersETag ordersFile))
        (fun _ => .error (.other "no connector")) false
        (watchIngestInput (ordersObject (.staged 1700000000 1700000100)) "orders.csv" 1 "") =
      .error (.sourceChanged ("source 1 changed since registration (etag 1700000000:5, now " ++
        "bc9280dfc1d4e67233f138f5bbbf0951)")) := by
  exact ⟨_, rfl, rfl⟩

end MigrationPlatform.Connectors
