/-
The names a batch archive goes by, from the source registry to its unpacker.

`create_batch` looks at the display name of a registered source, `BatchWorkflow`
at the key of its object, and `UnpackArchive` at the file the object was
downloaded to. Objects that were watched or staged are registered under the base
name of their key. An upload keeps the name it was sent under, and its key is
made of the digest of its bytes.
-/

import MigrationPlatform.Foundation.SlashPaths
import MigrationPlatform.Watch.WatchRuns

namespace MigrationPlatform.Batch

open MigrationPlatform.Connectors (Location SourceRow NewSource SourceFormat checkOrgLocation)
open MigrationPlatform.Watch (isArchive pathBase endsInSlash)
open GuardedRuns KeyedTable SlashPaths

inductive Provenance
  | upload
  | batchStage
  | watched
  | legacy
deriving DecidableEq, Repr

structure RegisteredSource extends SourceRow where
  filename : Option String
  provenance : Provenance
deriving DecidableEq, Repr

structure SourceTable where
  rows : List RegisteredSource := []
  nextID : Nat := 1
deriving DecidableEq, Repr

structure NewUpload where
  location : Location
  etag : Option String
  size : Nat
  filename : String

def NewUpload.inserted (u : NewUpload) (id : Nat) : RegisteredSource :=
  { id := id
    location := u.location
    etag := u.etag
    size := some u.size
    filename := some u.filename
    provenance := .upload }

def NewUpload.updated (u : NewUpload) (old : RegisteredSource) : RegisteredSource :=
  { old with etag := u.etag.or old.etag, filename := some u.filename }

def SourceTable.registerUpload (table : SourceTable) (u : NewUpload) : SourceTable :=
  { rows := upsert (fun row => row.location) (u.inserted table.nextID) u.updated table.rows
    nextID := table.nextID + 1 }

/-- `registerSource`. A row that exists keeps its name and its provenance. -/
def SourceTable.registerSource (table : SourceTable) (s : NewSource) (filename : String)
    (provenance : Provenance) : SourceTable :=
  { rows := upsert (fun row => row.location)
      { toSourceRow := s.inserted table.nextID
        filename := some filename
        provenance := provenance }
      (fun old => { old with toSourceRow := s.updated old.toSourceRow }) table.rows
    nextID := table.nextID + 1 }

def hexDigit (n : Nat) : Char := Char.ofNat (if n < 10 then 48 + n else 87 + n)

def hexEncode (bytes : List UInt8) : List Char :=
  bytes.flatMap (fun b => [hexDigit (b.toNat / 16), hexDigit (b.toNat % 16)])

structure Digest where
  bytes : List UInt8
  length : bytes.length = 32

def uploadKey (org : Int) (digest : Digest) : String :=
  let sha := hexEncode digest.bytes
  "uploads/" ++ toString org ++ "/" ++ String.ofList (sha.take 2) ++ "/" ++ String.ofList sha

def trimSlashes (text : List Char) : List Char :=
  ((text.dropWhile (fun c => c == '/')).reverse.dropWhile (fun c => c == '/')).reverse

def stagingObjectKey (stagingPrefix : String) (connectorID : Int) (remoteKey : String) : String :=
  let root := trimSlashes stagingPrefix.toList
  let remote := (remoteKey.toList.map (fun c => if c = '\\' then '/' else c)).dropWhile
    (fun c => c == '/')
  String.ofList
    (if root = [] then join [("sftp/" ++ toString connectorID).toList, remote]
    else join [root, (toString connectorID).toList, remote])

def stageObjectKey (batchID : Int) (stage : ManifestStage) : String :=
  String.ofList (join ["batches".toList, (toString batchID).toList, "stages".toList,
    stage.id.toList, (pathBase stage.file).toList])

/-- An object of a watch run: listed in the store, or fetched from an SFTP server. -/
inductive ArrivedObject
  | listed (key : String)
  | fetched (stagingPrefix : String) (connectorID : Int) (remoteKey : String)
deriving DecidableEq, Repr

def ArrivedObject.key : ArrivedObject → String
  | .listed key => key
  | .fetched stagingPrefix connectorID remoteKey =>
      stagingObjectKey stagingPrefix connectorID remoteKey

def ArrivedObject.isListed : ArrivedObject → Bool
  | .listed key => !endsInSlash key
  | .fetched _ _ _ => true

structure Deployment where
  minioBucket : String
  allowedBuckets : List String

inductive SourceAction
  | upload (org : Int) (digest : Digest) (etag : Option String) (size : Nat)
      (fileName : Option String)
  | watched (org : Int) (bucket : String) (arrived : ArrivedObject) (etag : String) (size : Nat)
  | staged (org : Int) (bucket : String) (batchID : Int) (stage : ManifestStage) (size : Nat)

def uploadFile (deployment : Deployment) (table : SourceTable) (org : Int) (digest : Digest)
    (etag : Option String) (size : Nat) (fileName : Option String) : SourceTable :=
  table.registerUpload
    { location := { orgID := org, bucket := deployment.minioBucket, key := uploadKey org digest }
      etag := etag
      size := size
      filename := fileName.getD "upload.bin" }

def registerWatched (deployment : Deployment) (table : SourceTable) (org : Int) (bucket key : String)
    (etag : String) (size : Nat) : Option SourceTable :=
  let location : Location := { orgID := org, bucket := bucket, key := key }
  match checkOrgLocation deployment.allowedBuckets location with
  | some _ => none
  | none =>
      some (table.registerSource { location := location, etag := etag, size := size }
        (pathBase key) .watched)

/-- The registration in `StartBatchStageJob`, for a stage of the batch's own organization. -/
def startBatchStageJob (table : SourceTable) (org : Int) (bucket : String) (batchID : Int)
    (key filename : String) (size : Nat) : Option SourceTable :=
  if ("batches/" ++ toString batchID ++ "/stages/").toList.isPrefixOf key.toList = true then
    some (table.registerSource
      { location := { orgID := org, bucket := bucket, key := key }, etag := "", size := size }
      filename .batchStage)
  else none

def SourceTable.step (deployment : Deployment) (table : SourceTable) :
    SourceAction → Option SourceTable
  | .upload org digest etag size fileName =>
      some (uploadFile deployment table org digest etag size fileName)
  | .watched org bucket arrived etag size =>
      if arrived.isListed = true then
        registerWatched deployment table org bucket arrived.key etag size
      else none
  | .staged org bucket batchID stage size =>
      startBatchStageJob table org bucket batchID (stageObjectKey batchID stage)
        (pathBase stage.file) size

inductive RegisteredFormat
  | archive
  | records (format : SourceFormat)
deriving DecidableEq, Repr

/-- `format_from_filename` of the API. -/
def registeredFormat (name : String) : RegisteredFormat :=
  let lower := name.toList.map Char.toLower
  if ".tar.gz".toList.isSuffixOf lower ∨ ".tgz".toList.isSuffixOf lower ∨
      ".zip".toList.isSuffixOf lower then .archive
  else if ".json".toList.isSuffixOf lower ∨ ".ndjson".toList.isSuffixOf lower ∨
      ".jsonl".toList.isSuffixOf lower then .records .json
  else if ".xml".toList.isSuffixOf lower then .records .xml
  else .records .csv

inductive SourceRequest
  | byID (id : Nat)
  | object (bucket key : String)
  | connector (connectorID : Int)
deriving DecidableEq, Repr

/-- What `create_batch` meets outside the registry: the caller's role and the
license, the connectors, and the start of the workflow. -/
structure ApiEnv where
  admitted : Except String Unit
  connectorKind : Int → Int → Option String
  start : Except String Unit

def requireConnector (env : ApiEnv) (org connectorID : Int) : Except String String :=
  match env.connectorKind org connectorID with
  | none => .error ("connector " ++ toString connectorID ++ " not found")
  | some kind => .ok kind

def notRegistered : String :=
  "source not found for this organization; upload the file with POST /files first"

def resolveObject (env : ApiEnv) (table : SourceTable) (org : Int) :
    SourceRequest → Except String RegisteredSource
  | .byID id =>
      match table.rows.find? (fun row => decide (row.id = id ∧ row.location.orgID = org)) with
      | none => .error notRegistered
      | some row => .ok row
  | .object bucket key =>
      match lookup (fun row => row.location) { orgID := org, bucket := bucket, key := key }
          table.rows with
      | none => .error notRegistered
      | some row => .ok row
  | .connector connectorID =>
      match requireConnector env org connectorID with
      | .error problem => .error problem
      | .ok kind =>
          if kind = "salesforce" then
            .error "this operation needs an uploaded file source, not a connector"
          else
            .error ("connector kind " ++ kind ++ " cannot feed a job directly; use a schedule")

structure BatchCreate where
  source : SourceRequest
  connectorID : Option Int := none
deriving DecidableEq, Repr

structure BatchWorkflowInput where
  orgID : Int
  connectorID : Option Int
  sourceID : Nat
  bucket : String
  key : String
  etag : String
  size : Nat
deriving DecidableEq, Repr

def RegisteredSource.archiveName (source : RegisteredSource) : String :=
  source.filename.getD source.location.key

/-- The workflow input of a batch that `create_batch` has started. -/
def createBatch (env : ApiEnv) (table : SourceTable) (org : Int) (request : BatchCreate) :
    Except String BatchWorkflowInput := do
  env.admitted
  let source ← resolveObject env table org request.source
  if registeredFormat source.archiveName ≠ .archive then
    throw "batch source must be .tar.gz, .tgz, or .zip"
  match request.connectorID with
  | none => pure ()
  | some connectorID => discard (requireConnector env org connectorID)
  env.start
  return {
    orgID := org
    connectorID := request.connectorID
    sourceID := source.id
    bucket := source.location.bucket
    key := source.location.key
    etag := source.etag.getD ""
    size := source.size.getD 0 }

/-! ### Unpacking -/

inductive Unpacker
  | tarGz
  | zip
deriving DecidableEq, Repr

/-- The choice that `UnpackArchive` makes. -/
def unpackerFor (archivePath : String) : Option Unpacker :=
  let lower := (toLower archivePath).toList
  if ".tar.gz".toList.isSuffixOf lower ∨ ".tgz".toList.isSuffixOf lower then some .tarGz
  else if ".zip".toList.isSuffixOf lower then some .zip
  else none

/-- What the activities of a batch meet: each part may fail on its own. -/
structure UnpackEnv where
  licensed : Except String Unit
  markRunning : Except String Unit
  loadSource : Except String Unit
  tempDir : Except String String
  download : Except String Nat
  maxCompressedBytes : Nat
  extractDir : Except String Unit
  unpack : Unpacker → Except String Unit
  quarantine : Except String Unit

def archivePath (tmpRoot key : String) : String :=
  String.ofList (join [tmpRoot.toList, (pathBase key).toList])

def unpackArchive (env : UnpackEnv) (path : String) (size : Nat) : Except String Unit := do
  if env.maxCompressedBytes < size then
    throw ("compressed archive size " ++ toString size ++ " exceeds limit " ++
      toString env.maxCompressedBytes)
  env.extractDir
  match unpackerFor path with
  | some unpacker => env.unpack unpacker
  | none => throw ("unsupported archive type: " ++ pathBase path)

def unpackAndStageArchive (env : UnpackEnv) (key : String) : Except String Unit := do
  env.loadSource
  let tmpRoot ← env.tempDir
  let size ← env.download
  match unpackArchive env (archivePath tmpRoot key) size with
  | .ok () => pure ()
  | .error problem => throw ("unpack: " ++ problem)

/-- How `BatchWorkflow` gets to its stages. A failed workflow leaves the row as
`create_batch` has written it, running. -/
inductive BatchFront
  | failed (message : String)
  | quarantined (reason : String)
  | staged
deriving DecidableEq, Repr

def batchFront (env : UnpackEnv) (key : String) : BatchFront :=
  match env.licensed with
  | .error problem => .failed problem
  | .ok () =>
      if isArchive key = false then .failed ("not an archive package: " ++ key)
      else
        match env.markRunning with
        | .error problem => .failed ("mark batch running: " ++ problem)
        | .ok () =>
            match unpackAndStageArchive env key with
            | .ok () => .staged
            | .error reason =>
                match env.quarantine with
                | .ok () => .quarantined reason
                | .error problem =>
                    .failed ("unpack failed (" ++ reason ++ "); quarantine persistence failed: " ++
                      problem)

structure UnpackEnv.Clear (env : UnpackEnv) : Prop where
  licensed : env.licensed = .ok ()
  markRunning : env.markRunning = .ok ()
  loadSource : env.loadSource = .ok ()
  tempDir : ∃ tmpRoot, env.tempDir = .ok tmpRoot
  download : ∃ size, env.download = .ok size ∧ size ≤ env.maxCompressedBytes
  extractDir : env.extractDir = .ok ()
  unpack : ∀ unpacker, env.unpack unpacker = .ok ()

structure UnpackableByName (input : BatchWorkflowInput) : Prop where
  accepted : isArchive input.key = true
  selected : ∀ tmpRoot, (unpackerFor (archivePath tmpRoot input.key)).isSome = true
  staged : ∀ env : UnpackEnv, env.Clear → batchFront env input.key = .staged

def KeyNamesArchive (source : RegisteredSource) : Prop :=
  match source.provenance with
  | .upload => False
  | .batchStage => True
  | .watched => True
  | .legacy => isArchive source.location.key = true

def namesArchive (lower : List Char) : Bool :=
  ".tar.gz".toList.isSuffixOf lower || ".tgz".toList.isSuffixOf lower ||
    ".zip".toList.isSuffixOf lower

theorem namesArchive_iff (lower : List Char) :
    namesArchive lower = true ↔ ∃ suffix ∈ [".tar.gz".toList, ".tgz".toList, ".zip".toList],
      suffix <:+ lower := by
  unfold namesArchive
  simp only [Bool.or_eq_true, List.isSuffixOf_iff_suffix, List.mem_cons, List.not_mem_nil,
    or_false, exists_eq_or_imp, exists_eq_left, or_assoc]

theorem namesArchive_mono {short long : List Char} (ends : short <:+ long)
    (named : namesArchive short = true) : namesArchive long = true := by
  rw [namesArchive_iff] at named ⊢
  obtain ⟨suffix, known, within⟩ := named
  exact ⟨suffix, known, within.trans ends⟩

theorem eq_ofNat_of_toNat {c : Char} {code : Nat} (same : c.toNat = code) : c = Char.ofNat code := by
  rw [← same, Char.ofNat_toNat]

private theorem toLowerRune_of_ascii {c : Char} (ascii : c.toLower.toNat < 128) :
    toLowerRune c = c.toLower := by
  unfold toLowerRune
  split
  · rename_i dotted
    rw [eq_ofNat_of_toNat dotted] at ascii
    exact absurd ascii (by decide)
  · split
    · rename_i kelvin
      rw [eq_ofNat_of_toNat kelvin] at ascii
      exact absurd ascii (by decide)
    · rfl

private theorem eq_slash_of_toLower {c : Char} (same : c.toLower = '/') : c = '/' := by
  unfold Char.toLower at same
  split at same
  · rename_i upper
    have value := congrArg (fun d => d.val.toNat) same
    have low := UInt32.le_iff_toNat_le.mp upper.1
    have high := UInt32.le_iff_toNat_le.mp upper.2
    simp at value low high
    omega
  · exact same

private theorem toLowerRune_eq_slash {c : Char} : toLowerRune c = '/' ↔ c = '/' := by
  constructor
  · intro same
    unfold toLowerRune at same
    split at same
    · cases same
    · split at same
      · cases same
      · exact eq_slash_of_toLower same
  · intro same
    rw [same]
    decide

private theorem lastSegment_lower (path : List Char) :
    lastSegment (path.map toLowerRune) = (lastSegment path).map toLowerRune := by
  have slashes : ((fun c => c != '/') ∘ toLowerRune) = fun c => c != '/' := by
    funext c
    rw [Function.comp_apply, Bool.eq_iff_iff, bne_iff_ne, bne_iff_ne, Ne, Ne, toLowerRune_eq_slash]
  unfold lastSegment
  rw [← List.map_reverse, List.takeWhile_map, slashes, List.map_reverse]

theorem isArchive_eq (key : String) :
    isArchive key = namesArchive ((lastSegment key.toList).map toLowerRune) := by
  have lowered : (toLower key).toList = key.toList.map toLowerRune := by
    unfold toLower
    rw [String.toList_ofList]
  rw [← lastSegment_lower, ← lowered]
  rfl

private theorem namesArchive_runes {name : List Char}
    (named : namesArchive (name.map Char.toLower) = true) :
    namesArchive (name.map toLowerRune) = true := by
  rw [namesArchive_iff] at named ⊢
  obtain ⟨suffix, known, before, joined⟩ := named
  have ascii : ∀ c ∈ suffix, c.toNat < 128 := by
    have all : [".tar.gz".toList, ".tgz".toList, ".zip".toList].all
        (fun suffix => suffix.all (fun c => decide (c.toNat < 128))) = true := by
      decide
    intro c member
    exact of_decide_eq_true (List.all_eq_true.mp (List.all_eq_true.mp all suffix known) c member)
  obtain ⟨front, final, parts, _front, lowered⟩ := List.map_eq_append_iff.mp joined.symm
  refine ⟨suffix, known, front.map toLowerRune, ?_⟩
  have same : final.map toLowerRune = suffix := by
    rw [← lowered]
    apply List.map_congr_left
    intro c member
    apply toLowerRune_of_ascii
    apply ascii
    rw [← lowered]
    exact List.mem_map_of_mem member
  rw [parts, List.map_append, same]

theorem registeredFormat_archive {name : String} (archive : registeredFormat name = .archive) :
    namesArchive (name.toList.map toLowerRune) = true := by
  apply namesArchive_runes
  unfold registeredFormat at archive
  dsimp only at archive
  split at archive
  · rename_i named
    unfold namesArchive
    simp only [Bool.or_eq_true]
    rcases named with targz | tgz | zip
    · exact .inl (.inl targz)
    · exact .inl (.inr tgz)
    · exact .inr zip
  · split at archive
    · cases archive
    · split at archive
      · cases archive
      · cases archive

theorem pathBase_of_lastSegment {path : String} (named : lastSegment path.toList ≠ []) :
    pathBase path = String.ofList (lastSegment path.toList) := by
  have nonempty : path ≠ "" := by
    intro empty
    rw [empty] at named
    exact named rfl
  have kept : path.toList.reverse.dropWhile (fun c => c == '/') = path.toList.reverse := by
    unfold lastSegment at named
    cases shape : path.toList.reverse with
    | nil => rfl
    | cons final rest =>
        apply List.dropWhile_cons_of_neg
        intro slash
        rw [shape, eq_of_beq slash] at named
        exact named rfl
  unfold pathBase
  rw [if_neg nonempty, kept]
  exact if_neg named

theorem pathBase_cases (path : String) :
    pathBase path = "." ∨ pathBase path = "/" ∨
      ((pathBase path).toList ≠ [] ∧ '/' ∉ (pathBase path).toList) := by
  unfold pathBase
  split
  · exact .inl rfl
  · dsimp only
    split
    · exact .inr (.inl rfl)
    · rename_i named
      refine .inr (.inr ?_)
      rw [String.toList_ofList]
      refine ⟨named, ?_⟩
      intro present
      have taken := List.mem_takeWhile_imp (List.mem_reverse.mp present)
      exact absurd rfl (bne_iff_ne.mp taken)

theorem properName_of_archive {name : List Char} (noSlash : '/' ∉ name)
    (named : namesArchive (name.map toLowerRune) = true) : ProperName name := by
  constructor
  · intro empty
    rw [empty] at named
    exact absurd named (by decide)
  · intro dot
    rw [dot] at named
    exact absurd named (by decide)
  · intro dots
    rw [dots] at named
    exact absurd named (by decide)
  · exact noSlash

private theorem properName_of_base {path : String}
    (named : namesArchive ((pathBase path).toList.map toLowerRune) = true) :
    ProperName (pathBase path).toList := by
  rcases pathBase_cases path with dot | slash | ⟨_, noSlash⟩
  · rw [dot] at named
    exact absurd named (by decide)
  · rw [slash] at named
    exact absurd named (by decide)
  · exact properName_of_archive noSlash named

/-! ### From the key to the unpacker -/

theorem lastSegment_suffix (path : List Char) : lastSegment path <:+ path := by
  unfold lastSegment
  rw [← List.reverse_prefix, List.reverse_reverse]
  exact List.takeWhile_prefix _

private theorem unpackerFor_isSome {path : String}
    (named : namesArchive ((lastSegment path.toList).map toLowerRune) = true) :
    (unpackerFor path).isSome = true := by
  have whole : namesArchive (toLower path).toList = true := by
    unfold toLower
    rw [String.toList_ofList]
    exact namesArchive_mono ((lastSegment_suffix path.toList).map toLowerRune) named
  unfold namesArchive at whole
  simp only [Bool.or_eq_true] at whole
  unfold unpackerFor
  dsimp only
  split
  · rfl
  · rename_i tar
    rcases whole with tarred | zipped
    · exact absurd tarred tar
    · rw [if_pos zipped]
      rfl

theorem archivePath_named {key : String} (archive : isArchive key = true) (tmpRoot : String) :
    (unpackerFor (archivePath tmpRoot key)).isSome = true := by
  rw [isArchive_eq] at archive
  have proper := properName_of_archive (not_mem_lastSegment key.toList) archive
  apply unpackerFor_isSome
  unfold archivePath
  rw [pathBase_of_lastSegment proper.nonempty, String.toList_ofList, String.toList_ofList]
  have final := lastSegment_join proper [tmpRoot.toList]
  rw [List.singleton_append] at final
  rw [final]
  exact archive

private theorem batchFront_staged {env : UnpackEnv} (clear : env.Clear) {key : String}
    (archive : isArchive key = true) : batchFront env key = .staged := by
  obtain ⟨tmpRoot, made⟩ := clear.tempDir
  obtain ⟨size, downloaded, small⟩ := clear.download
  obtain ⟨unpacker, chosen⟩ := Option.isSome_iff_exists.mp (archivePath_named archive tmpRoot)
  have unpacked : unpackArchive env (archivePath tmpRoot key) size = .ok () := by
    unfold unpackArchive
    rw [if_neg (Nat.not_lt.mpr small), clear.extractDir, chosen]
    exact clear.unpack unpacker
  have staged : unpackAndStageArchive env key = .ok () := by
    unfold unpackAndStageArchive
    rw [clear.loadSource, made, downloaded]
    change (match unpackArchive env (archivePath tmpRoot key) size with
      | .ok () => pure ()
      | .error problem => throw ("unpack: " ++ problem)) = Except.ok ()
    rw [unpacked]
    rfl
  unfold batchFront
  rw [clear.licensed, clear.markRunning, staged, archive]
  rfl

theorem unpackableByName_iff (input : BatchWorkflowInput) :
    UnpackableByName input ↔ isArchive input.key = true := by
  constructor
  · intro unpackable
    exact unpackable.accepted
  · intro archive
    constructor
    · exact archive
    · exact archivePath_named archive
    · intro env clear
      exact batchFront_staged clear archive

/-- The name of a row beside its key. Only uploads have keys that start with `u`,
so that an upload never renames a row of another kind. -/
def NamedBeside (source : RegisteredSource) : Prop :=
  match source.provenance with
  | .upload => ∃ org digest, source.location.key = uploadKey org digest
  | .batchStage =>
      source.location.key.toList.head? ≠ some 'u' ∧
        ∃ batchID stage, source.location.key = stageObjectKey batchID stage ∧
          source.filename = some (pathBase stage.file)
  | .watched =>
      source.location.key.toList.head? ≠ some 'u' ∧
        lastSegment source.location.key.toList ≠ [] ∧
        source.filename = some (pathBase source.location.key)
  | .legacy => True

private theorem uploadKey_head (org : Int) (digest : Digest) :
    (uploadKey org digest).toList.head? = some 'u' := by
  unfold uploadKey
  simp only [String.toList_append]
  rfl

theorem namedBeside_upload {table : SourceTable} {u : NewUpload} {org : Int} {digest : Digest}
    (keyed : u.location.key = uploadKey org digest)
    (before : ∀ row ∈ table.rows, NamedBeside row) :
    ∀ row ∈ (table.registerUpload u).rows, NamedBeside row := by
  intro row member
  rcases mem_upsert member with new | old | ⟨earlier, present, same, changed⟩
  · rw [new]
    exact ⟨org, digest, keyed⟩
  · exact before row old
  · have named := before earlier present
    have head : earlier.location.key.toList.head? = some 'u' := by
      have location : earlier.location = u.location := same
      rw [location, keyed]
      exact uploadKey_head org digest
    rw [changed]
    unfold NamedBeside at named ⊢
    change match earlier.provenance with
      | .upload => _
      | .batchStage => _
      | .watched => _
      | .legacy => _
    cases kind : earlier.provenance with
    | upload =>
        rw [kind] at named
        exact named
    | batchStage =>
        rw [kind] at named
        exact absurd head named.1
    | watched =>
        rw [kind] at named
        exact absurd head named.1
    | legacy => trivial

theorem namedBeside_register {table : SourceTable} {s : NewSource} {filename : String}
    {provenance : Provenance}
    (fresh : ∀ row : RegisteredSource, row.location = s.location → row.filename = some filename →
      row.provenance = provenance → NamedBeside row)
    (before : ∀ row ∈ table.rows, NamedBeside row) :
    ∀ row ∈ (table.registerSource s filename provenance).rows, NamedBeside row := by
  intro row member
  rcases mem_upsert member with new | old | ⟨earlier, present, _same, changed⟩
  · rw [new]
    exact fresh _ rfl rfl rfl
  · exact before row old
  · rw [changed]
    exact before earlier present

private theorem orgObjectPrefix_not_upload (org : Int) {path : List Char}
    (head : path.head? = some 'u') :
    (Connectors.orgObjectPrefix org).toList.isPrefixOf
      (path.dropWhile (fun char => decide (char = '/'))) = false := by
  cases path with
  | nil => cases head
  | cons first rest =>
      cases head
      unfold Connectors.orgObjectPrefix
      simp only [String.toList_append]
      rfl

private theorem head_of_orgLocation {allowedBuckets : List String} {location : Location}
    (allowed : checkOrgLocation allowedBuckets location = none) :
    location.key.toList.head? ≠ some 'u' := by
  intro head
  unfold checkOrgLocation at allowed
  dsimp only at allowed
  split at allowed
  · cases allowed
  · split at allowed
    · cases allowed
    · split at allowed
      · cases allowed
      · split at allowed
        · cases allowed
        · rename_i outside
          exact outside (orgObjectPrefix_not_upload location.orgID head)

private theorem lastSegment_of_listed {key : String} (nonempty : key ≠ "")
    (listed : endsInSlash key = false) : lastSegment key.toList ≠ [] := by
  unfold lastSegment
  unfold endsInSlash at listed
  rw [List.getLast?_eq_head?_reverse] at listed
  cases shape : key.toList.reverse with
  | nil =>
      rw [List.reverse_eq_nil_iff, String.toList_eq_nil_iff] at shape
      exact absurd shape nonempty
  | cons final rest =>
      rw [shape] at listed
      have different : (final != '/') = true := by
        apply bne_iff_ne.mpr
        intro same
        rw [same] at listed
        cases listed
      simp only [List.takeWhile_cons, different, if_true]
      simp

theorem head_trimSlashes (text : List Char) : (trimSlashes text).head? ≠ some '/' := by
  intro head
  have starts : trimSlashes text <+: text.dropWhile (fun c => c == '/') := by
    unfold trimSlashes
    rw [← List.reverse_suffix, List.reverse_reverse]
    exact List.dropWhile_suffix _
  obtain ⟨rest, joined⟩ := starts
  cases shape : trimSlashes text with
  | nil =>
      rw [shape] at head
      cases head
  | cons first others =>
      rw [shape] at head joined
      cases head
      have stopped := List.head?_dropWhile_not (fun c => c == '/') text
      rw [← joined] at stopped
      cases stopped

private theorem lastSegment_stagingObjectKey (stagingPrefix : String) (connectorID : Int)
    (remoteKey : String) :
    lastSegment (stagingObjectKey stagingPrefix connectorID remoteKey).toList ≠ [] := by
  unfold stagingObjectKey
  dsimp only
  rw [String.toList_ofList]
  split
  · apply lastSegment_join_ne_nil
    · simp [String.toList_append]
    · simp [String.toList_append]
  · rename_i rooted
    exact lastSegment_join_ne_nil _ rooted (head_trimSlashes _)

private theorem watched_namedBeside {deployment : Deployment} {table next : SourceTable} {org : Int}
    {bucket etag : String} {arrived : ArrivedObject} {size : Nat} (listed : arrived.isListed = true)
    (registered : registerWatched deployment table org bucket arrived.key etag size = some next)
    (before : ∀ row ∈ table.rows, NamedBeside row) : ∀ row ∈ next.rows, NamedBeside row := by
  unfold registerWatched at registered
  dsimp only at registered
  split at registered
  · cases registered
  · rename_i allowed
    cases registered
    apply namedBeside_register _ before
    intro row placed named kind
    have ends : lastSegment arrived.key.toList ≠ [] := by
      cases arrived with
      | listed key =>
          apply lastSegment_of_listed (Connectors.key_ne_empty_of_allowed allowed)
          exact (Bool.not_eq_true' _).mp listed
      | fetched stagingPrefix connectorID remoteKey =>
          exact lastSegment_stagingObjectKey stagingPrefix connectorID remoteKey
    unfold NamedBeside
    rw [kind, placed]
    exact ⟨head_of_orgLocation allowed, ends, named⟩

private theorem staged_namedBeside {table next : SourceTable} {org : Int} {bucket : String}
    {batchID : Int}
    {stage : ManifestStage} {size : Nat}
    (registered : startBatchStageJob table org bucket batchID (stageObjectKey batchID stage)
      (pathBase stage.file) size = some next)
    (before : ∀ row ∈ table.rows, NamedBeside row) : ∀ row ∈ next.rows, NamedBeside row := by
  unfold startBatchStageJob at registered
  split at registered
  · rename_i within
    cases registered
    apply namedBeside_register _ before
    intro row placed named kind
    unfold NamedBeside
    rw [kind, placed]
    refine ⟨?_, batchID, stage, rfl, named⟩
    intro head
    obtain ⟨rest, joined⟩ := List.isPrefixOf_iff_prefix.mp within
    dsimp only at head
    rw [← joined] at head
    simp [String.toList_append] at head
  · cases registered

private theorem step_namedBeside {deployment : Deployment} {table next : SourceTable}
    {action : SourceAction} (before : ∀ row ∈ table.rows, NamedBeside row)
    (taken : table.step deployment action = some next) : ∀ row ∈ next.rows, NamedBeside row := by
  cases action with
  | upload org digest etag size fileName =>
      cases taken
      exact @namedBeside_upload _ _ org digest rfl before
  | watched org bucket arrived etag size =>
      change (if arrived.isListed = true then _ else none) = some next at taken
      split at taken
      · rename_i listed
        exact watched_namedBeside listed taken before
      · cases taken
  | staged org bucket batchID stage size => exact staged_namedBeside taken before

private theorem run_namedBeside {deployment : Deployment} {table final : SourceTable}
    {actions : List SourceAction} (before : ∀ row ∈ table.rows, NamedBeside row)
    (ran : run (SourceTable.step deployment) table actions = some final) :
    ∀ row ∈ final.rows, NamedBeside row := by
  refine @invariant_of_run _ _ _ (fun table => ∀ row ∈ table.rows, NamedBeside row) ?_
    actions table final before ran
  intro state action next holds taken
  exact step_namedBeside holds taken

/-! ### Accepted sources -/

theorem mem_of_resolveObject {env : ApiEnv} {table : SourceTable} {org : Int}
    {request : SourceRequest} {source : RegisteredSource}
    (resolved : resolveObject env table org request = .ok source) : source ∈ table.rows := by
  cases request with
  | byID id =>
      unfold resolveObject at resolved
      dsimp only at resolved
      split at resolved
      · cases resolved
      · rename_i row found
        cases resolved
        exact List.mem_of_find?_eq_some found
  | object bucket key =>
      unfold resolveObject at resolved
      dsimp only at resolved
      split at resolved
      · cases resolved
      · rename_i row found
        cases resolved
        exact (mem_of_lookup found).1
  | connector connectorID =>
      unfold resolveObject at resolved
      dsimp only at resolved
      split at resolved
      · cases resolved
      · split at resolved
        · cases resolved
        · cases resolved

theorem createBatch_ok {env : ApiEnv} {table : SourceTable} {org : Int} {request : BatchCreate}
    {source : RegisteredSource} {input : BatchWorkflowInput}
    (resolved : resolveObject env table org request.source = .ok source)
    (accepted : createBatch env table org request = .ok input) :
    registeredFormat source.archiveName = .archive ∧ input.key = source.location.key := by
  unfold createBatch at accepted
  rw [resolved] at accepted
  cases admitted : env.admitted with
  | error problem =>
      rw [admitted] at accepted
      cases accepted
  | ok _ =>
      rw [admitted] at accepted
      dsimp only [bind, Except.bind] at accepted
      split at accepted
      · cases accepted
      · rename_i archive
        refine ⟨not_not.mp archive, ?_⟩
        split at accepted
        · split at accepted
          · cases accepted
          · cases accepted
            rfl
        · split at accepted
          · cases accepted
          · split at accepted
            · cases accepted
            · cases accepted
              rfl

private theorem hexEncode_ends {bytes : List UInt8} (nonempty : bytes ≠ []) :
    ∃ front digit, digit < 16 ∧ hexEncode bytes = front ++ [hexDigit digit] := by
  rcases List.eq_nil_or_concat bytes with none_given | ⟨early, last, shape⟩
  · exact absurd none_given nonempty
  · refine ⟨hexEncode early ++ [hexDigit (last.toNat / 16)], last.toNat % 16,
      Nat.mod_lt _ (by decide), ?_⟩
    rw [shape, List.concat_eq_append]
    simp [hexEncode, List.flatMap_append]

private theorem hexDigit_ends_no_archive :
    ∀ digit < 16, ∀ suffix ∈ [".tar.gz".toList, ".tgz".toList, ".zip".toList],
      suffix.getLast?.isSome = true ∧ suffix.getLast? ≠ some (toLowerRune (hexDigit digit)) := by
  decide

theorem uploadKey_not_archive (org : Int) (digest : Digest) :
    isArchive (uploadKey org digest) = false := by
  have given : digest.bytes ≠ [] := by
    intro empty
    have length := digest.length
    rw [empty] at length
    cases length
  obtain ⟨front, digit, small, encoded⟩ := hexEncode_ends given
  apply Bool.eq_false_iff.mpr
  intro archive
  rw [isArchive_eq] at archive
  have whole := namesArchive_mono ((lastSegment_suffix _).map toLowerRune) archive
  obtain ⟨suffix, known, before, joined⟩ := (namesArchive_iff _).mp whole
  have final := congrArg List.getLast? joined
  unfold uploadKey at final
  simp only [String.toList_append, String.toList_ofList, encoded, List.map_append,
    List.map_cons, List.map_nil, ← List.append_assoc, List.getLast?_concat] at final
  have ending := hexDigit_ends_no_archive digit small suffix known
  obtain ⟨last, found⟩ := Option.isSome_iff_exists.mp ending.1
  rw [List.getLast?_append, found, Option.some_or] at final
  exact ending.2 (found.trans final)

private theorem watched_isArchive {key : String} (named : lastSegment key.toList ≠ [])
    (archive : registeredFormat (pathBase key) = .archive) : isArchive key = true := by
  have runes := registeredFormat_archive archive
  rw [pathBase_of_lastSegment named, String.toList_ofList] at runes
  rw [isArchive_eq]
  exact runes

private theorem staged_isArchive {batchID : Int} {stage : ManifestStage}
    (archive : registeredFormat (pathBase stage.file) = .archive) :
    isArchive (stageObjectKey batchID stage) = true := by
  have runes := registeredFormat_archive archive
  have final := lastSegment_join (properName_of_base runes)
    ["batches".toList, (toString batchID).toList, "stages".toList, stage.id.toList]
  rw [isArchive_eq]
  unfold stageObjectKey
  rw [String.toList_ofList]
  change namesArchive ((lastSegment (join (["batches".toList, (toString batchID).toList,
    "stages".toList, stage.id.toList] ++ [(pathBase stage.file).toList]))).map toLowerRune) = true
  rw [final]
  exact runes

private theorem isArchive_iff_keyNamesArchive {source : RegisteredSource}
    (beside : NamedBeside source)
    (archive : registeredFormat source.archiveName = .archive) :
    isArchive source.location.key = true ↔ KeyNamesArchive source := by
  unfold NamedBeside at beside
  unfold KeyNamesArchive
  unfold RegisteredSource.archiveName at archive
  cases kind : source.provenance with
  | upload =>
      rw [kind] at beside
      obtain ⟨org, digest, keyed⟩ := beside
      rw [keyed, uploadKey_not_archive]
      exact iff_of_false Bool.false_ne_true id
  | batchStage =>
      rw [kind] at beside
      obtain ⟨_, batchID, stage, keyed, named⟩ := beside
      rw [named] at archive
      rw [keyed]
      exact iff_of_true (staged_isArchive archive) trivial
  | watched =>
      rw [kind] at beside
      obtain ⟨_, ends, named⟩ := beside
      rw [named] at archive
      exact iff_of_true (watched_isArchive ends archive) trivial
  | legacy => rfl

/-- A batch of an accepted source gets past its names exactly when the source is
not an upload and, where it was there before the registry, when its key names an
archive. -/
theorem accepted_source_unpackable_iff (deployment : Deployment) (backfilled : SourceTable)
    (legacy : ∀ row ∈ backfilled.rows, row.provenance = .legacy) (actions : List SourceAction)
    (table : SourceTable)
    (ran : run (SourceTable.step deployment) backfilled actions = some table) (env : ApiEnv)
    (org : Int) (request : BatchCreate) (source : RegisteredSource)
    (resolved : resolveObject env table org request.source = .ok source)
    (input : BatchWorkflowInput) (accepted : createBatch env table org request = .ok input) :
    UnpackableByName input ↔ KeyNamesArchive source := by
  have initially : ∀ row ∈ backfilled.rows, NamedBeside row := by
    intro row member
    unfold NamedBeside
    rw [legacy row member]
    trivial
  have beside := run_namedBeside initially ran source (mem_of_resolveObject resolved)
  obtain ⟨archive, keyed⟩ := createBatch_ok resolved accepted
  rw [unpackableByName_iff, keyed]
  exact isArchive_iff_keyNamesArchive beside archive

def plantDeployment : Deployment :=
  { minioBucket := "migration", allowedBuckets := ["migration"] }

def packageDigest : Digest := { bytes := List.replicate 32 171, length := by decide }

def packageKey : String := uploadKey 1 packageDigest

def packageArrivals : List SourceAction :=
  [.upload 1 packageDigest (some "e1") 512 (some "orders.zip"),
    .watched 1 "migration" (.listed "orgs/1/in/orders.zip") "e2" 512]

def uploadedPackage : RegisteredSource :=
  { id := 1
    location := { orgID := 1, bucket := "migration", key := packageKey }
    etag := some "e1"
    size := some 512
    filename := some "orders.zip"
    provenance := .upload }

def droppedPackage : RegisteredSource :=
  { id := 2
    location := { orgID := 1, bucket := "migration", key := "orgs/1/in/orders.zip" }
    etag := some "e2"
    size := some 512
    filename := some "orders.zip"
    provenance := .watched }

def packageTable : SourceTable :=
  { rows := [uploadedPackage, droppedPackage], nextID := 3 }

def openApi : ApiEnv :=
  { admitted := .ok (), connectorKind := fun _ _ => none, start := .ok () }

def packageInput (source : RegisteredSource) (etag : String) : BatchWorkflowInput :=
  { orgID := 1
    connectorID := none
    sourceID := source.id
    bucket := "migration"
    key := source.location.key
    etag := etag
    size := 512 }

def clearEnv : UnpackEnv :=
  { licensed := .ok ()
    markRunning := .ok ()
    loadSource := .ok ()
    tempDir := .ok "/tmp/batch-1-7"
    download := .ok 512
    maxCompressedBytes := 268435456
    extractDir := .ok ()
    unpack := fun _ => .ok ()
    quarantine := .ok () }

theorem packages_registered :
    run (SourceTable.step plantDeployment) {} packageArrivals = some packageTable := by
  decide +kernel

theorem dropped_package_unpackable :
    createBatch openApi packageTable 1 { source := .byID 2 } =
        .ok (packageInput droppedPackage "e2") ∧
      UnpackableByName (packageInput droppedPackage "e2") := by
  have accepted : createBatch openApi packageTable 1 { source := .byID 2 } =
      .ok (packageInput droppedPackage "e2") := by
    rfl
  refine ⟨accepted, ?_⟩
  refine (accepted_source_unpackable_iff plantDeployment {} ?_ packageArrivals packageTable
    packages_registered openApi 1 { source := .byID 2 } droppedPackage rfl _ accepted).mpr trivial
  intro row absent
  exact absurd absent List.not_mem_nil

theorem uploaded_package_not_unpackable :
    run (SourceTable.step plantDeployment) {} packageArrivals = some packageTable ∧
      createBatch openApi packageTable 1 { source := .byID 1 } =
        .ok (packageInput uploadedPackage "e1") ∧
      isArchive packageKey = false ∧
      batchFront clearEnv packageKey = .failed ("not an archive package: " ++ packageKey) ∧
      ¬ UnpackableByName (packageInput uploadedPackage "e1") := by
  have refused : isArchive packageKey = false := uploadKey_not_archive 1 packageDigest
  refine ⟨packages_registered, rfl, refused, ?_, ?_⟩
  · unfold batchFront
    rw [refused]
    rfl
  · rw [unpackableByName_iff]
    change ¬ isArchive packageKey = true
    rw [refused]
    exact Bool.false_ne_true

end MigrationPlatform.Batch
