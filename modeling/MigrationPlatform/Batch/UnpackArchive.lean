/-
Unpacking a batch archive: `UnpackArchive`, its two loops, `safeJoin` and
`writeLimitedFile`.

An archive is what its reader hands out, and what a reader, the disk and the file
system answer on the way is part of the entry it concerns. A size that an entry
declares is added with the wrapping sum of the source, and the copy is limited on
its own. A byte of a name that is not UTF-8 is a character no check looks for.
-/

import MigrationPlatform.Batch.ArchiveNames
import MigrationPlatform.Batch.Manifest
import MigrationPlatform.Foundation.KeyedTable
import MigrationPlatform.Foundation.SlashPaths
import MigrationPlatform.Foundation.Trimming
import MigrationPlatform.Watch.SftpListing

namespace MigrationPlatform.Batch

open KeyedTable SlashPaths
open Watch (pathBase endsInSlash)

structure UnpackLimits where
  maxCompressedBytes : Int64
  maxUncompressedBytes : Int64
  maxEntries : Int64
deriving DecidableEq, Repr

def defaultUnpackLimits : UnpackLimits :=
  { maxCompressedBytes := 268435456
    maxUncompressedBytes := 1073741824
    maxEntries := 1000 }

/-! ### What the host answers -/

/-- One read of an entry: the bytes it gives, whether an error other than the end
comes with them, and how many of them a failing write still stores. -/
structure Reading where
  size : Nat
  failed : Bool := false
  stored : Option Nat := none
deriving DecidableEq, Repr

/-- The content of an entry, and whether its directory and its file can be made. -/
structure Payload where
  readings : List Reading
  mkdir : Bool := true
  create : Bool := true
deriving DecidableEq, Repr

structure TarEntry where
  name : String
  typeflag : Char
  size : Int64
  payload : Payload
deriving DecidableEq, Repr

/-- The two bits come from the mode that the entry records. -/
structure ZipEntry where
  name : String
  isSymlink : Bool := false
  isDir : Bool := false
  uncompressedSize64 : UInt64
  opens : Bool := true
  payload : Payload
deriving DecidableEq, Repr

/-- A reader that fails before its first entry, or the entries; a tar stream may
break off after its last whole entry. -/
inductive ArchiveReader
  | unreadable
  | notGzip
  | tarGz (entries : List TarEntry) (broken : Bool)
  | zip (entries : List ZipEntry)
deriving DecidableEq, Repr

structure ArchiveFile where
  size : Int64
  mkdir : Bool := true
  reader : ArchiveReader
deriving DecidableEq, Repr

inductive UnpackError
  | stat
  | compressedSize (size limit : Int64)
  | mkdir
  | unsupported (base : String)
  | unreadable
  | gzip
  | tar
  | entryCount (limit : Int64)
  | unsafeEntry (kind name : String) (problem : ManifestError)
  | links (name : String)
  | symlinks (name : String)
  | entryType (typeflag : Char) (name : String)
  | invalidSize (name : String)
  | uncompressedSize (limit : Int64)
  | opening
  | escapes (rel : String)
  | create
  | copy
  | sizeBudget
deriving DecidableEq, Repr

def relPathText (quoted : String → String) : ManifestError → String
  | .fileAbsolute _ path => "absolute or drive path not allowed: " ++ quoted path
  | .fileSegment _ path => "unsafe path segment in " ++ quoted path
  | _ => "empty path"

/-- `host` stands for the texts of the operating system and of the readers. -/
def UnpackError.text (quoted : String → String) (host : UnpackError → String) :
    UnpackError → String
  | .compressedSize size limit =>
      "compressed archive size " ++ toString size ++ " exceeds limit " ++ toString limit
  | .unsupported base => "unsupported archive type: " ++ base
  | .gzip => "gzip: " ++ host .gzip
  | .tar => "tar: " ++ host .tar
  | .entryCount limit => "archive entry count exceeds limit " ++ toString limit
  | .unsafeEntry kind name problem =>
      "unsafe " ++ kind ++ " entry " ++ quoted name ++ ": " ++ relPathText quoted problem
  | .links name => "symlinks/hardlinks not allowed: " ++ quoted name
  | .symlinks name => "symlinks not allowed: " ++ quoted name
  | .entryType typeflag name =>
      "unsupported tar entry type " ++ String.singleton typeflag ++ " for " ++ quoted name
  | .invalidSize name => "invalid size for " ++ quoted name
  | .uncompressedSize limit => "uncompressed size would exceed limit " ++ toString limit
  | .escapes rel => "path escapes extract root: " ++ quoted rel
  | .sizeBudget => "entry exceeds size budget"
  | other => host other

/-- The files of this run, and every write in its order. -/
structure Disk where
  files : List String := []
  writes : List (String × Nat) := []
deriving DecidableEq, Repr

def Disk.create (disk : Disk) (path : String) : Disk :=
  { disk with files := if path ∈ disk.files then disk.files else disk.files ++ [path] }

def Disk.store (disk : Disk) (path : String) (count : Nat) : Disk :=
  { disk with writes := disk.writes ++ [(path, count)] }

def Disk.remove (disk : Disk) (path : String) : Disk :=
  { disk with files := disk.files.filter (fun file => file ≠ path) }

def bytesWritten : List (String × Nat) → Nat
  | [] => 0
  | write :: rest => write.2 + bytesWritten rest

/-- What is left of two lists of segments behind what they begin with in common. -/
def apart : List (List Char) → List (List Char) → List (List Char) × List (List Char)
  | left :: lefts, right :: rights =>
      if left = right then apart lefts rights else (left :: lefts, right :: rights)
  | lefts, rights => (lefts, rights)

def filepathRel (base target : List Char) : Option (List Char) :=
  if clean target = clean base then some ['.']
  else if (walk base).1 ≠ (walk target).1 then none
  else
    let rest := apart (walk base).2 (walk target).2
    if rest.1.head? = some ['.', '.'] then none
    else some (['/'].intercalate (rest.1.map (fun _ => ['.', '.']) ++ rest.2))

def safeJoin (root rel : String) : Except UnpackError String :=
  let abs := join [root.toList, clean rel.toList]
  match filepathRel root.toList abs with
  | none => .error (.escapes rel)
  | some relOut =>
      if ['.', '.'].isPrefixOf relOut then .error (.escapes rel) else .ok (String.ofList abs)

/-- `io.Copy` from a reader limited to `left` more bytes: the disk it leaves, the
bytes it copied on top of `copied`, and whether it failed. -/
def copyLimited (path : String) : Nat → List Reading → Nat → Disk → Disk × Nat × Bool
  | _, [], copied, disk => (disk, copied, false)
  | left, reading :: rest, copied, disk =>
      if left = 0 then (disk, copied, false)
      else
        let size := min reading.size left
        match if size = 0 then none else reading.stored with
        | some stored => (disk.store path (min stored size), copied + min stored size, true)
        | none =>
            let disk := disk.store path size
            if reading.failed ∧ reading.size ≤ left then (disk, copied + size, true)
            else copyLimited path (left - size) rest (copied + size) disk

def writeLimitedFile (abs : String) (payload : Payload) (declared remaining : Int64) (disk : Disk) :
    Disk × Except UnpackError Int64 :=
  let limit := if 0 < declared ∧ declared < remaining then declared else remaining
  if payload.create = false then (disk, .error .create)
  else
    -- a limit that is not positive lets nothing through
    match copyLimited abs (limit + 1).toInt.toNat payload.readings 0 (disk.create abs) with
    | (disk, _, true) => (disk, .error .copy)
    | (disk, copied, false) =>
        let n := Int64.ofNat copied
        if remaining < n ∨ (0 < declared ∧ declared < n) then (disk.remove abs, .error .sizeBudget)
        else (disk, .ok n)

/-- The variables of a loop, with the disk; `entries` counts in the tar loop only. -/
structure Unpacking where
  disk : Disk := {}
  files : List (String × String) := []
  total : Int64 := 0
  entries : Int64 := 0
deriving DecidableEq, Repr

def placeEntry (destDir : String) (lim : UnpackLimits) (name : String) (declared : Int64)
    (payload : Payload) (state : Unpacking) : Unpacking × Option UnpackError :=
  match safeJoin destDir name with
  | .error problem => (state, some problem)
  | .ok abs =>
      if payload.mkdir = false then (state, some .mkdir)
      else
        match writeLimitedFile abs payload declared (lim.maxUncompressedBytes - state.total)
            state.disk with
        | (disk, .error problem) => ({ state with disk := disk }, some problem)
        | (disk, .ok n) =>
            ({ state with
                disk := disk
                total := state.total + n
                files := upsert Prod.fst (name, abs) (fun file => (file.1, abs)) state.files }, none)

/-- Without a leading `./`. -/
def entryName (name : String) : String :=
  match name.toList with
  | '.' :: '/' :: rest => String.ofList rest
  | _ => name

def tarEntry (destDir : String) (lim : UnpackLimits) (hdr : TarEntry) (state : Unpacking) :
    Unpacking × Option UnpackError :=
  let state := { state with entries := state.entries + 1 }
  if lim.maxEntries < state.entries then (state, some (.entryCount lim.maxEntries))
  else
    let name := entryName hdr.name
    if name = "" ∨ endsInSlash name then (state, none)
    else
      match validateRelPath 0 name with
      | .error problem => (state, some (.unsafeEntry "tar" hdr.name problem))
      | .ok () =>
          if hdr.typeflag = '5' then (state, none)
          else if hdr.typeflag = '2' ∨ hdr.typeflag = '1' then (state, some (.links hdr.name))
          else if hdr.typeflag ≠ '0' ∧ hdr.typeflag ≠ '\x00' then
            (state, some (.entryType hdr.typeflag hdr.name))
          else if hdr.size < 0 then (state, some (.invalidSize hdr.name))
          else if lim.maxUncompressedBytes < state.total + hdr.size then
            (state, some (.uncompressedSize lim.maxUncompressedBytes))
          else placeEntry destDir lim name hdr.size hdr.payload state

def zipEntry (destDir : String) (lim : UnpackLimits) (zf : ZipEntry) (state : Unpacking) :
    Unpacking × Option UnpackError :=
  let name := entryName zf.name
  if name = "" ∨ endsInSlash name then (state, none)
  else
    match validateRelPath 0 name with
    | .error problem => (state, some (.unsafeEntry "zip" zf.name problem))
    | .ok () =>
        if zf.isSymlink then (state, some (.symlinks zf.name))
        else if zf.isDir then (state, none)
        else
          let declared := zf.uncompressedSize64.toInt64
          if declared < 0 then (state, some (.invalidSize zf.name))
          else if lim.maxUncompressedBytes < state.total + declared then
            (state, some (.uncompressedSize lim.maxUncompressedBytes))
          else if zf.opens = false then (state, some .opening)
          else placeEntry destDir lim name declared zf.payload state

def eachEntry {Entry : Type} (step : Entry → Unpacking → Unpacking × Option UnpackError) :
    List Entry → Unpacking → Unpacking × Option UnpackError
  | [], state => (state, none)
  | entry :: rest, state =>
      match step entry state with
      | (state, some problem) => (state, some problem)
      | (state, none) => eachEntry step rest state

structure UnpackRun where
  disk : Disk := {}
  result : Except UnpackError (List (String × String))

def unpackTarGz (destDir : String) (lim : UnpackLimits) (entries : List TarEntry) (broken : Bool) :
    UnpackRun :=
  match eachEntry (tarEntry destDir lim) entries {} with
  | (state, some problem) => { disk := state.disk, result := .error problem }
  | (state, none) =>
      { disk := state.disk, result := if broken then .error .tar else .ok state.files }

def unpackZip (destDir : String) (lim : UnpackLimits) (entries : List ZipEntry) : UnpackRun :=
  if lim.maxEntries.toInt < entries.length then { result := .error (.entryCount lim.maxEntries) }
  else
    match eachEntry (zipEntry destDir lim) entries {} with
    | (state, some problem) => { disk := state.disk, result := .error problem }
    | (state, none) => { disk := state.disk, result := .ok state.files }

def unpackReader (destDir : String) (lim : UnpackLimits) (reader : ArchiveReader) :
    Unpacker → UnpackRun
  | .tarGz =>
      match reader with
      | .unreadable => { result := .error .unreadable }
      | .tarGz entries broken => unpackTarGz destDir lim entries broken
      | _ => { result := .error .gzip }
  | .zip =>
      match reader with
      | .zip entries => unpackZip destDir lim entries
      | _ => { result := .error .unreadable }

def unpackArchiveInto (archivePath destDir : String) (file : Option ArchiveFile)
    (lim : UnpackLimits) : UnpackRun :=
  let lim := if lim.maxCompressedBytes ≤ 0 then defaultUnpackLimits else lim
  match file with
  | none => { result := .error .stat }
  | some file =>
      if lim.maxCompressedBytes < file.size then
        { result := .error (.compressedSize file.size lim.maxCompressedBytes) }
      else if file.mkdir = false then { result := .error .mkdir }
      else
        match unpackerFor archivePath with
        | some unpacker => unpackReader destDir lim file.reader unpacker
        | none => { result := .error (.unsupported (pathBase archivePath)) }

def ArchiveReader.count : ArchiveReader → Nat
  | .tarGz entries _ => entries.length
  | .zip entries => entries.length
  | _ => 0

def fileAt (files : List (String × String)) (name : String) : Option String :=
  (lookup Prod.fst name files).map Prod.snd

/-! ### Names -/

theorem mem_splitOn_trimRunes {segment runes : List Char} (dots : ∀ c ∈ segment, c = '.')
    (member : segment ∈ runes.splitOn '/') : segment ∈ (trimRunes runes).splitOn '/' := by
  obtain ⟨front, back, parts, before, behind⟩ := Trimming.exists_trim (p := isSpaceRune) runes
  have noSpace : ∀ {cut : List Char}, (∀ c ∈ cut, isSpaceRune c = true) → '/' ∉ cut := by
    intro cut spaces inside
    exact absurd (spaces '/' inside) (by decide)
  have none_cut : ∀ {cut : List Char}, (∀ c ∈ cut, isSpaceRune c = true) →
      (∀ c ∈ cut, c = '.') → cut = [] := by
    intro cut spaces onlyDots
    cases cut with
    | nil => rfl
    | cons c rest =>
        have space := spaces c List.mem_cons_self
        rw [onlyDots c List.mem_cons_self] at space
        exact absurd space (by decide)
  change segment ∈ (Trimming.trim isSpaceRune runes).splitOn '/'
  obtain ⟨pieces, last, split, joined⟩ :=
    Splitting.splitOn_append_right (noSpace behind) (front ++ Trimming.trim isSpaceRune runes)
  obtain ⟨head, tail, inner, outer⟩ :=
    Splitting.splitOn_append_left (noSpace before) (Trimming.trim isSpaceRune runes)
  have inFront : segment ∈ (front ++ Trimming.trim isSpaceRune runes).splitOn '/' := by
    rw [parts, joined] at member
    rw [split]
    rcases List.mem_append.mp member with early | final
    · exact List.mem_append_left _ early
    · rw [List.mem_singleton] at final
      have cut := none_cut behind (fun c inside =>
        dots c (final ▸ List.mem_append_right last inside))
      rw [cut, List.append_nil] at final
      exact List.mem_append_right _ (List.mem_singleton.mpr final)
  rw [outer] at inFront
  rw [inner]
  rcases List.mem_cons.mp inFront with first | later
  · have cut := none_cut before (fun c inside =>
      dots c (first ▸ List.mem_append_left head inside))
    rw [cut, List.nil_append] at first
    exact List.mem_cons.mpr (.inl first)
  · exact List.mem_cons_of_mem head later

private theorem dots_of_isUnsafeSegment {segment : List Char} (bad : ¬IsStep segment) :
    isUnsafeSegment segment = true ∧ ∀ c ∈ segment, c = '.' := by
  have shapes : segment = [] ∨ segment = ['.'] ∨ segment = ['.', '.'] := by
    unfold IsStep at bad
    tauto
  rcases shapes with shape | shape | shape
  · rw [shape]
    exact ⟨rfl, List.forall_mem_nil _⟩
  · rw [shape]
    exact ⟨rfl, fun c member => List.mem_singleton.mp member⟩
  · rw [shape]
    refine ⟨rfl, ?_⟩
    intro c member
    rcases List.mem_cons.mp member with first | second
    · exact first
    · exact List.mem_singleton.mp second

/-- Every segment of a name that passes is a step, also where the check looked at
another spelling of the name. -/
theorem isStep_of_validateRelPath {name : String} (valid : validateRelPath 0 name = .ok ()) :
    ∀ segment ∈ name.toList.splitOn '/', IsStep segment := by
  intro segment member
  by_contra bad
  obtain ⟨unsafe_segment, dots⟩ := dots_of_isUnsafeSegment bad
  have same : segment.map (fun c => if c = '\\' then '/' else c) = segment := by
    calc segment.map (fun c => if c = '\\' then '/' else c)
        = segment.map id := List.map_congr_left (fun c inside => by rw [dots c inside]; rfl)
      _ = segment := List.map_id segment
  have inMapped : segment ∈ (name.toList.map (fun c => if c = '\\' then '/' else c)).splitOn '/' := by
    rw [Splitting.splitOn_map (by decide), List.mem_flatMap]
    refine ⟨segment, member, ?_⟩
    rw [same, List.splitOn_eq_singleton (Splitting.not_mem_of_mem_splitOn _ segment member)]
    exact List.mem_singleton_self segment
  have checked := mem_splitOn_trimRunes dots inMapped
  simp only [validateRelPath] at valid
  split at valid
  · cases valid
  split at valid
  · cases valid
  split at valid
  · cases valid
  rename_i _nonempty _relative clean
  exact clean (List.any_eq_true.mpr ⟨segment, checked, unsafe_segment⟩)

private theorem strictlyInside_of_safeJoin {destDir name abs : String}
    (valid : validateRelPath 0 name = .ok ()) (joined : safeJoin destDir name = .ok abs) :
    StrictlyInside destDir.toList name.toList abs.toList := by
  have steps := isStep_of_validateRelPath valid
  have place : abs.toList = join [destDir.toList, name.toList] := by
    unfold safeJoin at joined
    dsimp only at joined
    rw [clean_of_steps steps] at joined
    split at joined
    · cases joined
    split at joined
    · cases joined
    rw [← Except.ok.inj joined, String.toList_ofList]
  rw [place]
  exact strictlyInside_join destDir.toList steps

theorem bytesWritten_append (left right : List (String × Nat)) :
    bytesWritten (left ++ right) = bytesWritten left + bytesWritten right := by
  induction left with
  | nil => exact (Nat.zero_add _).symm
  | cons write rest ih => rw [List.cons_append, bytesWritten, bytesWritten, ih, Nat.add_assoc]

theorem bytesWritten_store (disk : Disk) (path : String) (count : Nat) :
    bytesWritten (disk.store path count).writes = bytesWritten disk.writes + count := by
  unfold Disk.store
  rw [bytesWritten_append]
  rfl

theorem copyLimited_spec (path : String) (readings : List Reading) :
    ∀ (left copied : Nat) (disk : Disk),
      (copyLimited path left readings copied disk).1.files = disk.files ∧
      (copyLimited path left readings copied disk).2.1 ≤ copied + left ∧
      bytesWritten (copyLimited path left readings copied disk).1.writes + copied =
        bytesWritten disk.writes + (copyLimited path left readings copied disk).2.1 := by
  induction readings with
  | nil =>
      intro left copied disk
      exact ⟨rfl, Nat.le_add_right copied left, rfl⟩
  | cons reading rest ih =>
      intro left copied disk
      unfold copyLimited
      split
      · exact ⟨rfl, Nat.le_add_right copied left, rfl⟩
      · dsimp only
        split
        · dsimp only
          rw [bytesWritten_store]
          exact ⟨rfl, by omega, by omega⟩
        · split
          · dsimp only
            rw [bytesWritten_store]
            exact ⟨rfl, by omega, by omega⟩
          · obtain ⟨files, within, counted⟩ := ih (left - min reading.size left)
              (copied + min reading.size left) (disk.store path (min reading.size left))
            rw [bytesWritten_store] at counted
            exact ⟨files, by omega, by omega⟩

theorem toInt_add_of_fits {a b : Int64} (low : -9223372036854775808 ≤ a.toInt + b.toInt)
    (high : a.toInt + b.toInt < 9223372036854775808) : (a + b).toInt = a.toInt + b.toInt := by
  rw [Int64.toInt_add]
  exact Int.bmod_eq_of_le low high

private theorem toInt_sub_of_fits {a b : Int64} (low : -9223372036854775808 ≤ a.toInt - b.toInt)
    (high : a.toInt - b.toInt < 9223372036854775808) : (a - b).toInt = a.toInt - b.toInt := by
  rw [Int64.toInt_sub]
  exact Int.bmod_eq_of_le low high

/-- A file takes at most one byte more than what remains, and a file that is kept
takes no more. -/
theorem writeLimitedFile_spec (abs : String) (payload : Payload) (declared : Int64) (disk : Disk)
    {remaining : Int64} (positive : 0 ≤ remaining.toInt) (below : remaining.toInt < 9223372036854775807) :
    ((bytesWritten (writeLimitedFile abs payload declared remaining disk).1.writes : Int) ≤
        bytesWritten disk.writes + remaining.toInt + 1) ∧
    ∀ n, (writeLimitedFile abs payload declared remaining disk).2 = .ok n →
      (bytesWritten (writeLimitedFile abs payload declared remaining disk).1.writes : Int) =
        bytesWritten disk.writes + n.toInt ∧ 0 ≤ n.toInt ∧ n.toInt ≤ remaining.toInt ∧
      ∀ path ∈ (writeLimitedFile abs payload declared remaining disk).1.files,
        path = abs ∨ path ∈ disk.files := by
  -- the limit is positive or zero, and one more does not wrap
  obtain ⟨limit, shape, limit_nonneg, limit_le⟩ : ∃ limit : Int64,
      (if 0 < declared ∧ declared < remaining then declared else remaining) = limit ∧
        0 ≤ limit.toInt ∧ limit.toInt ≤ remaining.toInt := by
    refine ⟨_, rfl, ?_⟩
    split
    · rename_i smaller
      have low := Int64.lt_iff_toInt_lt.mp smaller.1
      have high := Int64.lt_iff_toInt_lt.mp smaller.2
      have zero : (0 : Int64).toInt = 0 := rfl
      omega
    · exact ⟨positive, Int.le_refl _⟩
  have one : (1 : Int64).toInt = 1 := rfl
  have next : (limit + 1).toInt = limit.toInt + 1 := by
    rw [toInt_add_of_fits (by omega) (by omega), one]
  obtain ⟨files, within, counted⟩ :=
    copyLimited_spec abs payload.readings (limit + 1).toInt.toNat 0 (disk.create abs)
  have created : (disk.create abs).writes = disk.writes := rfl
  have listed : ∀ path ∈ (disk.create abs).files, path = abs ∨ path ∈ disk.files := by
    intro path member
    unfold Disk.create at member
    dsimp only at member
    split at member
    · exact .inr member
    · rcases List.mem_append.mp member with old | new
      · exact .inr old
      · exact .inl (List.mem_singleton.mp new)
  unfold writeLimitedFile
  dsimp only
  rw [shape]
  split
  · refine ⟨by dsimp only; omega, ?_⟩
    intro n impossible
    cases impossible
  · cases copy : copyLimited abs (limit + 1).toInt.toNat payload.readings 0 (disk.create abs) with
    | mk after rest =>
        obtain ⟨copied, failed⟩ := rest
        rw [copy] at files within counted
        dsimp only at files within counted
        rw [created] at counted
        have small : copied < 2 ^ 63 := by omega
        have number : (Int64.ofNat copied).toInt = copied := Int64.toInt_ofNat_of_lt small
        cases failed with
        | true =>
            dsimp only
            refine ⟨by omega, ?_⟩
            intro n impossible
            cases impossible
        | false =>
            dsimp only
            split
            · refine ⟨by unfold Disk.remove; dsimp only; omega, ?_⟩
              intro n impossible
              cases impossible
            · rename_i kept
              rw [not_or] at kept
              have fits := Int64.not_lt.mp kept.1
              refine ⟨by dsimp only; omega, ?_⟩
              intro n same
              rw [← Except.ok.inj same, number]
              rw [Int64.le_iff_toInt_le, number] at fits
              refine ⟨by dsimp only; omega, by omega, fits, ?_⟩
              dsimp only
              rw [files]
              exact listed

/-! ### The loops keep the limits -/

structure Within (destDir : String) (lim : UnpackLimits) (state : Unpacking) : Prop where
  total_nonneg : 0 ≤ state.total.toInt
  total_le : state.total.toInt ≤ lim.maxUncompressedBytes.toInt
  written : (bytesWritten state.disk.writes : Int) = state.total.toInt
  recorded : ∀ name path, fileAt state.files name = some path →
    validateRelPath 0 name = .ok () ∧ safeJoin destDir name = .ok path
  listed : ∀ path ∈ state.disk.files, ∃ name, fileAt state.files name = some path

variable {lim : UnpackLimits} {destDir : String}

theorem within_start (positive : 0 < lim.maxUncompressedBytes.toInt) : Within destDir lim {} := by
  refine ⟨Int.le_refl _, Int.le_of_lt positive, rfl, ?_, ?_⟩
  · intro name path recorded
    cases recorded
  · intro path absent
    exact absurd absent List.not_mem_nil

theorem renamed_key (path : String) (file : String × String) : Prod.fst (file.1, path) = file.1 := rfl

theorem fileAt_upsert_self (files : List (String × String)) (name path : String) :
    fileAt (upsert Prod.fst (name, path) (fun file => (file.1, path)) files) name = some path := by
  have found := @lookup_upsert_self _ _ _ Prod.fst (name, path) _ (renamed_key path) files
  unfold fileAt
  rw [found]
  cases lookup Prod.fst name files with
  | none => rfl
  | some file => rfl

theorem fileAt_upsert_other (files : List (String × String)) {name other : String} (path : String)
    (differs : other ≠ name) :
    fileAt (upsert Prod.fst (name, path) (fun file => (file.1, path)) files) other =
      fileAt files other := by
  have found : lookup Prod.fst other
      (upsert Prod.fst (name, path) (fun file => (file.1, path)) files) =
        lookup Prod.fst other files :=
    lookup_upsert_other (renamed_key path) differs files
  unfold fileAt
  rw [found]

structure StepKeeps (destDir : String) (lim : UnpackLimits) (result : Unpacking × Option UnpackError) :
    Prop where
  moment : (bytesWritten result.1.disk.writes : Int) ≤ lim.maxUncompressedBytes.toInt + 1
  within : result.2 = none → Within destDir lim result.1

theorem Within.stays {state : Unpacking}
    (within : Within destDir lim state) (problem : Option UnpackError) :
    StepKeeps destDir lim (state, problem) := by
  have total_le := within.total_le
  have written := within.written
  exact ⟨by dsimp only; omega, fun _ => within⟩

theorem placeEntry_keeps {destDir name : String} {state : Unpacking}
    (within : Within destDir lim state) (below : lim.maxUncompressedBytes.toInt < 9223372036854775807)
    (valid : validateRelPath 0 name = .ok ()) (declared : Int64) (payload : Payload) :
    StepKeeps destDir lim (placeEntry destDir lim name declared payload state) := by
  have total_nonneg := within.total_nonneg
  have total_le := within.total_le
  have written := within.written
  have remaining : (lim.maxUncompressedBytes - state.total).toInt =
      lim.maxUncompressedBytes.toInt - state.total.toInt :=
    toInt_sub_of_fits (by omega) (by omega)
  unfold placeEntry
  cases joined : safeJoin destDir name with
  | error problem => exact within.stays (some problem)
  | ok abs =>
      dsimp only
      split
      · exact within.stays (some .mkdir)
      · have nonneg : 0 ≤ (lim.maxUncompressedBytes - state.total).toInt := by omega
        have small : (lim.maxUncompressedBytes - state.total).toInt < 9223372036854775807 := by omega
        obtain ⟨moment, kept⟩ := writeLimitedFile_spec abs payload declared state.disk nonneg small
        cases write : writeLimitedFile abs payload declared
            (lim.maxUncompressedBytes - state.total) state.disk with
        | mk disk answer =>
            rw [write] at moment kept
            dsimp only at moment kept
            cases answer with
            | error problem =>
                refine ⟨by dsimp only; omega, ?_⟩
                intro impossible
                cases impossible
            | ok n =>
                obtain ⟨counted, nonneg, fits, files⟩ := kept n rfl
                have total : (state.total + n).toInt = state.total.toInt + n.toInt :=
                  toInt_add_of_fits (by omega) (by omega)
                refine ⟨by dsimp only; omega, ?_⟩
                intro _finished
                refine ⟨by dsimp only; omega, by dsimp only; omega, by dsimp only; omega, ?_, ?_⟩
                · intro other path found
                  dsimp only at found
                  by_cases same : other = name
                  · rw [same, fileAt_upsert_self] at found
                    rw [same, ← Option.some.inj found]
                    exact ⟨valid, joined⟩
                  · rw [fileAt_upsert_other _ _ same] at found
                    exact within.recorded other path found
                · intro path member
                  rcases files path member with new | old
                  · refine ⟨name, ?_⟩
                    rw [new]
                    exact fileAt_upsert_self state.files name abs
                  · obtain ⟨other, found⟩ := within.listed path old
                    refine ⟨other, ?_⟩
                    dsimp only
                    by_cases same : other = name
                    · -- the name was recorded before, at the same path
                      rw [same] at found ⊢
                      have again := (within.recorded name path found).2
                      rw [joined] at again
                      rw [fileAt_upsert_self, Except.ok.inj again]
                    · rw [fileAt_upsert_other _ _ same]
                      exact found

theorem Within.count {state : Unpacking} (within : Within destDir lim state) (entries : Int64) :
    Within destDir lim { state with entries := entries } :=
  ⟨within.total_nonneg, within.total_le, within.written, within.recorded, within.listed⟩

private theorem tarEntry_keeps (destDir : String)
    (below : lim.maxUncompressedBytes.toInt < 9223372036854775807) (hdr : TarEntry)
    (state : Unpacking) (within : Within destDir lim state) :
    StepKeeps destDir lim (tarEntry destDir lim hdr state) := by
  have counted := within.count (state.entries + 1)
  unfold tarEntry
  dsimp only
  split
  · exact counted.stays _
  split
  · exact counted.stays _
  split
  · exact counted.stays _
  rename_i _ valid
  split
  · exact counted.stays _
  split
  · exact counted.stays _
  split
  · exact counted.stays _
  split
  · exact counted.stays _
  split
  · exact counted.stays _
  · exact placeEntry_keeps counted below valid hdr.size hdr.payload

private theorem zipEntry_keeps (destDir : String)
    (below : lim.maxUncompressedBytes.toInt < 9223372036854775807) (zf : ZipEntry)
    (state : Unpacking) (within : Within destDir lim state) :
    StepKeeps destDir lim (zipEntry destDir lim zf state) := by
  unfold zipEntry
  dsimp only
  split
  · exact within.stays _
  split
  · exact within.stays _
  rename_i _ valid
  split
  · exact within.stays _
  split
  · exact within.stays _
  split
  · exact within.stays _
  split
  · exact within.stays _
  split
  · exact within.stays _
  · exact placeEntry_keeps within below valid zf.uncompressedSize64.toInt64 zf.payload

theorem eachEntry_keeps {Entry : Type} {step : Entry → Unpacking → Unpacking × Option UnpackError}
    (keeps : ∀ entry state, Within destDir lim state → StepKeeps destDir lim (step entry state))
    (entries : List Entry) :
    ∀ state, Within destDir lim state → StepKeeps destDir lim (eachEntry step entries state) := by
  induction entries with
  | nil =>
      intro state within
      exact within.stays none
  | cons entry rest ih =>
      intro state within
      have kept := keeps entry state within
      unfold eachEntry
      cases ran : step entry state with
      | mk next problem =>
          rw [ran] at kept
          cases problem with
          | some problem => exact kept
          | none => exact ih next (kept.within rfl)

private theorem placeEntry_entries (destDir : String) (lim : UnpackLimits) (name : String)
    (declared : Int64)
    (payload : Payload) (state : Unpacking) :
    (placeEntry destDir lim name declared payload state).1.entries = state.entries := by
  unfold placeEntry
  split
  · rfl
  split
  · rfl
  split
  · rfl
  · rfl

theorem tarEntry_counts (destDir : String) (lim : UnpackLimits) (hdr : TarEntry) (state : Unpacking)
    (passed : (tarEntry destDir lim hdr state).2 = none) :
    (tarEntry destDir lim hdr state).1.entries = state.entries + 1 ∧
      ¬lim.maxEntries < state.entries + 1 := by
  have entries : (tarEntry destDir lim hdr state).1.entries = state.entries + 1 := by
    unfold tarEntry
    dsimp only
    split
    · rfl
    split
    · rfl
    split
    · rfl
    split
    · rfl
    split
    · rfl
    split
    · rfl
    split
    · rfl
    split
    · rfl
    · exact placeEntry_entries destDir lim _ _ _ _
  refine ⟨entries, ?_⟩
  intro exceeds
  unfold tarEntry at passed
  dsimp only at passed
  rw [if_pos exceeds] at passed
  cases passed

theorem eachEntry_tar_count (destDir : String)
    (below : lim.maxEntries.toInt < 9223372036854775807) (entries : List TarEntry) :
    ∀ state final, 0 ≤ state.entries.toInt → state.entries.toInt ≤ lim.maxEntries.toInt →
      eachEntry (tarEntry destDir lim) entries state = (final, none) →
      state.entries.toInt + entries.length ≤ lim.maxEntries.toInt := by
  induction entries with
  | nil =>
      intro state final nonneg few finished
      rw [List.length_nil]
      omega
  | cons hdr rest ih =>
      intro state final nonneg few finished
      have one : (1 : Int64).toInt = 1 := rfl
      have next : (state.entries + 1).toInt = state.entries.toInt + 1 := by
        rw [toInt_add_of_fits (by omega) (by omega), one]
      unfold eachEntry at finished
      cases ran : tarEntry destDir lim hdr state with
      | mk after problem =>
          rw [ran] at finished
          cases problem with
          | some problem => cases finished
          | none =>
              have passed := tarEntry_counts destDir lim hdr state
              rw [ran] at passed
              obtain ⟨counted, allowed⟩ := passed rfl
              have bound := Int64.le_iff_toInt_le.mp (Int64.not_lt.mp allowed)
              have later := ih after final (by rw [counted]; omega) (by rw [counted]; exact bound)
                finished
              rw [counted, next] at later
              rw [List.length_cons]
              omega

/-! ### The whole archive -/

structure UnpackLimits.InRange (lim : UnpackLimits) : Prop where
  compressed : 0 < lim.maxCompressedBytes.toInt ∧
    lim.maxCompressedBytes.toInt < 9223372036854775807
  uncompressed : 0 < lim.maxUncompressedBytes.toInt ∧
    lim.maxUncompressedBytes.toInt < 9223372036854775807
  entries : 0 < lim.maxEntries.toInt ∧ lim.maxEntries.toInt < 9223372036854775807

/-- The bytes that were on the disk at any moment of a run, and what a run that
succeeds has done. -/
structure UnpackRun.Contained (run : UnpackRun) (destDir : String) (lim : UnpackLimits)
    (count : Nat) : Prop where
  moments : ∀ before, before <+: run.disk.writes →
    (bytesWritten before : Int) ≤ lim.maxUncompressedBytes.toInt + 1
  entries : ∀ files, run.result = .ok files → (count : Int) ≤ lim.maxEntries.toInt
  written : ∀ files, run.result = .ok files →
    (bytesWritten run.disk.writes : Int) ≤ lim.maxUncompressedBytes.toInt
  inside : ∀ files, run.result = .ok files → ∀ path ∈ run.disk.files,
    ∃ name, fileAt files name = some path ∧
      StrictlyInside destDir.toList name.toList path.toList

theorem contained_of_refused {problem : UnpackError} (range : lim.InRange) (count : Nat) :
    ({ result := .error problem } : UnpackRun).Contained destDir lim count := by
  refine ⟨?_, ?_, ?_, ?_⟩
  · intro before early
    rw [List.prefix_nil.mp early]
    have positive := range.uncompressed.1
    change (0 : Int) ≤ _
    omega
  all_goals
    intro files impossible
    cases impossible

theorem contained_of_step {count : Nat} {state : Unpacking}
    {problem : Option UnpackError} {result : Except UnpackError (List (String × String))}
    (keeps : StepKeeps destDir lim (state, problem)) (succeeds : ∀ files, result = .ok files →
      problem = none ∧ files = state.files ∧ (count : Int) ≤ lim.maxEntries.toInt) :
    ({ disk := state.disk, result := result } : UnpackRun).Contained destDir lim count := by
  refine ⟨?_, ?_, ?_, ?_⟩
  · rintro before ⟨later, whole⟩
    have moment := keeps.moment
    dsimp only at moment whole
    rw [← whole, bytesWritten_append] at moment
    omega
  · intro files finished
    exact (succeeds files finished).2.2
  · intro files finished
    have within := keeps.within (succeeds files finished).1
    have written := within.written
    have total_le := within.total_le
    dsimp only at written total_le ⊢
    omega
  · intro files finished path member
    obtain ⟨ended, same, _⟩ := succeeds files finished
    have within := keeps.within ended
    obtain ⟨name, found⟩ := within.listed path member
    obtain ⟨valid, joined⟩ := within.recorded name path found
    refine ⟨name, ?_, strictlyInside_of_safeJoin valid joined⟩
    rw [same]
    exact found

private theorem unpackTarGz_contained (range : lim.InRange) (entries : List TarEntry)
    (broken : Bool) :
    (unpackTarGz destDir lim entries broken).Contained destDir lim entries.length := by
  have keeps := eachEntry_keeps (tarEntry_keeps destDir range.uncompressed.2) entries {}
    (within_start range.uncompressed.1)
  have counted := eachEntry_tar_count destDir range.entries.2 entries {}
  unfold unpackTarGz
  cases ran : eachEntry (tarEntry destDir lim) entries {} with
  | mk state problem =>
      rw [ran] at keeps
      cases problem with
      | some problem =>
          apply contained_of_step keeps
          intro files impossible
          cases impossible
      | none =>
          apply contained_of_step keeps
          intro files finished
          have bound := counted state (Int.le_refl _) (Int.le_of_lt range.entries.1) ran
          have start : ({} : Unpacking).entries.toInt = 0 := rfl
          rw [start, Int.zero_add] at bound
          split at finished
          · cases finished
          · exact ⟨rfl, (Except.ok.inj finished).symm, bound⟩

private theorem unpackZip_contained (range : lim.InRange) (entries : List ZipEntry) :
    (unpackZip destDir lim entries).Contained destDir lim entries.length := by
  have keeps := eachEntry_keeps (zipEntry_keeps destDir range.uncompressed.2) entries {}
    (within_start range.uncompressed.1)
  unfold unpackZip
  split
  · exact contained_of_refused range entries.length
  · rename_i few
    cases ran : eachEntry (zipEntry destDir lim) entries {} with
    | mk state problem =>
        rw [ran] at keeps
        cases problem with
        | some problem =>
            apply contained_of_step keeps
            intro files impossible
            cases impossible
        | none =>
            apply contained_of_step keeps
            intro files finished
            exact ⟨rfl, (Except.ok.inj finished).symm, Int.not_lt.mp few⟩

private theorem positive_limit (positive : 0 < lim.maxCompressedBytes.toInt) :
    ¬lim.maxCompressedBytes ≤ 0 := by
  intro low
  have zero : (0 : Int64).toInt = 0 := rfl
  have bound := Int64.le_iff_toInt_le.mp low
  omega

private theorem unpackReader_contained (range : lim.InRange)
    (reader : ArchiveReader) (unpacker : Unpacker) :
    (unpackReader destDir lim reader unpacker).Contained destDir lim reader.count := by
  cases unpacker with
  | tarGz =>
      cases reader with
      | unreadable => exact contained_of_refused range _
      | notGzip => exact contained_of_refused range _
      | tarGz entries broken => exact unpackTarGz_contained range entries broken
      | zip entries => exact contained_of_refused range _
  | zip =>
      cases reader with
      | unreadable => exact contained_of_refused range _
      | notGzip => exact contained_of_refused range _
      | tarGz entries broken => exact contained_of_refused range _
      | zip entries => exact unpackZip_contained range entries

/-- Whatever the archive holds, a run keeps to its limits and to its directory. -/
theorem unpackArchive_contained (archivePath destDir : String) (file : Option ArchiveFile)
    {lim : UnpackLimits} (range : lim.InRange) :
    (unpackArchiveInto archivePath destDir file lim).Contained destDir lim
      ((file.map (fun file => file.reader.count)).getD 0) := by
  unfold unpackArchiveInto
  dsimp only
  rw [if_neg (positive_limit range.compressed.1)]
  cases file with
  | none => exact contained_of_refused range 0
  | some file =>
      simp only [Option.map_some, Option.getD_some]
      split
      · exact contained_of_refused range _
      split
      · exact contained_of_refused range _
      split
      · rename_i unpacker _
        exact unpackReader_contained range file.reader unpacker
      · exact contained_of_refused range _

def smallLimits : UnpackLimits :=
  { maxCompressedBytes := 100
    maxUncompressedBytes := 4
    maxEntries := 2 }

def wrappingSizes : ArchiveFile :=
  { size := 90
    reader := .tarGz
      [{ name := "a", typeflag := '0', size := 1, payload := { readings := [{ size := 1 }] } },
        { name := "./b/c", typeflag := '0', size := 9223372036854775807,
          payload := { readings := [{ size := 2 }] } }] false }

theorem wrappingSizes_contained :
    smallLimits.InRange ∧
      (unpackArchiveInto "in.tgz" "/tmp/out" (some wrappingSizes) smallLimits).result =
        .ok [("a", "/tmp/out/a"), ("b/c", "/tmp/out/b/c")] ∧
      (unpackArchiveInto "in.tgz" "/tmp/out" (some wrappingSizes) smallLimits).Contained "/tmp/out"
        smallLimits 2 := by
  have range : smallLimits.InRange := ⟨by decide, by decide, by decide⟩
  exact ⟨range, rfl, unpackArchive_contained "in.tgz" "/tmp/out" (some wrappingSizes) range⟩

end MigrationPlatform.Batch
