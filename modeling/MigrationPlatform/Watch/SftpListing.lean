/-
The listing of a watched SFTP directory, and what an idle run has seen.

The walk over the remote tree stops at a number of entries, and only then are
the glob and the cursor applied. A run that finds nothing new may therefore have
left files behind that no later run will reach either.
`idle_watch_complete_iff` says when that cannot be.
-/

import Mathlib.Data.List.Infix
import Mathlib.Tactic.ByContra
import MigrationPlatform.Connectors.WatchedSource

namespace MigrationPlatform.Watch

open MigrationPlatform.Connectors

structure SftpConfig where
  host : String
  port : Int
  username : String
  path : String
  glob : String
  sort : String
  stagingBucket : String
  stagingPrefix : String
  insecureIgnoreHostKey : Bool
  hostKey : String
  maxFileBytes : Int
  maxListEntries : Int
  settleAge : Int
deriving DecidableEq, Repr

/-- How numbers are read: `truncated` takes a JSON number to an `int64` by way of
a `float64`, `parseInt` is that of `strconv`. -/
structure NumberReader where
  truncated : String → Int
  parseInt : String → Option Int

section Configuration

variable (reader : NumberReader) (cfg : Data)

def int64Config (key : String) (default : Int) : Int :=
  match cfg.lookup key with
  | some (.number text) => reader.truncated text
  | some (.text text) => (reader.parseInt text).getD default
  | _ => default

def textOr (first second default : String) : String :=
  if textField cfg first ≠ "" then textField cfg first
  else if textField cfg second ≠ "" then textField cfg second
  else default

def eitherText (first second : String) : String :=
  match cfg.lookup first with
  | some (.text value) => value
  | _ => textField cfg second

def eitherFlag (first second : String) : Bool :=
  match cfg.lookup first with
  | some (.bool value) => value
  | _ =>
      match cfg.lookup second with
      | some (.bool value) => value
      | _ => false

/-- Nanoseconds of a `time.Duration`, which is an `int64` and wraps at 2^64. -/
def secondsToDuration (seconds : Int) : Int := (seconds * 1000000000).bmod 18446744073709551616

def sftpPort : Int :=
  let port := int64Config reader cfg "port" 22
  if port ≤ 0 then 22 else port

def sftpSettings : SftpConfig :=
  { host := textField cfg "host"
    port := sftpPort reader cfg
    username := textField cfg "username"
    path := textOr cfg "path" "prefix" ""
    glob := textOr cfg "glob" "glob" "*"
    sort := textOr cfg "sort" "sort" "lexical"
    stagingBucket := textOr cfg "staging_bucket" "bucket" "migration"
    stagingPrefix :=
      match cfg.lookup "staging_prefix" with
      | some (.text stagingPrefix) => stagingPrefix
      | _ => "sftp-landing/"
    insecureIgnoreHostKey := eitherFlag cfg "insecure_ignore_host_key" "insecureIgnoreHostKey"
    hostKey := eitherText cfg "host_key" "hostKey"
    maxFileBytes := int64Config reader cfg "max_file_bytes" 1073741824
    maxListEntries := int64Config reader cfg "max_list_entries" 1000
    settleAge := secondsToDuration (int64Config reader cfg "settle_seconds" 30) }

end Configuration

/-- The dial timeout and the switch for private networks are left out. -/
def parseSftpConfig (reader : NumberReader) (config : Option Data) : Except String SftpConfig :=
  match config with
  | none => .error "watched_sftp config is required"
  | some cfg =>
      let settings := sftpSettings reader cfg
      if settings.host = "" ∨ settings.username = "" then
        .error "watched_sftp requires host and username"
      else if settings.maxFileBytes ≤ 0 ∨ settings.maxListEntries ≤ 0 ∨
          10000 < settings.maxListEntries ∨ settings.settleAge < 0 then
        .error "invalid SFTP limits"
      else .ok settings

/-- What the server says of a remote entry. `age` is `time.Since` its
modification, in nanoseconds, when the walk is at it. -/
structure FileInfo where
  isDir : Bool := false
  regular : Bool := true
  size : Nat
  modTime : Int
  age : Int

structure WalkStep where
  path : String
  info : Option FileInfo
  err : Option String := none

structure ListedObject where
  key : String
  etag : String
  size : Nat
  lastModified : Int
deriving DecidableEq, Repr

def normalizedKey (path : String) : String :=
  String.ofList (path.toList.map (fun c => if c = '\\' then '/' else c))

def candidate (cfg : SftpConfig) (step : WalkStep) : Option ListedObject :=
  match step.info with
  | none => none
  | some info =>
      if info.isDir = true then none
      else if cfg.maxFileBytes < info.size ∨ info.age < cfg.settleAge then none
      else
        some { key := normalizedKey step.path
               etag := sftpFingerprint info.modTime info.size
               size := info.size
               lastModified := info.modTime }

def walkFiles (cfg : SftpConfig) : List WalkStep → List ListedObject →
    Except String (List ListedObject)
  | [], raw => .ok raw
  | step :: rest, raw =>
      match step.err with
      | some problem => .error problem
      | none =>
          match candidate cfg step with
          | none => walkFiles cfg rest raw
          | some object =>
              if cfg.maxListEntries ≤ ((raw ++ [object]).length : Int) then .ok (raw ++ [object])
              else walkFiles cfg rest (raw ++ [object])

def pathBase (path : String) : String :=
  if path = "" then "."
  else
    let last := ((path.toList.reverse.dropWhile (fun c => c == '/')).takeWhile
      (fun c => c != '/')).reverse
    if last = [] then "/" else String.ofList last

def endsInSlash (key : String) : Bool := key.toList.getLast? == some '/'

section Listing

-- `path.Match`, which fails on a malformed pattern
variable (pathMatch : String → String → Except String Bool)

/-- The pattern is tried on the base name, then on the key. -/
def globMatches (glob key : String) : Except String Bool :=
  match pathMatch glob (pathBase key) with
  | .error problem => .error problem
  | .ok true => .ok true
  | .ok false => pathMatch glob key

def filterObjects (glob : String) : List ListedObject → Except String (List ListedObject)
  | [] => .ok []
  | object :: rest =>
      if endsInSlash object.key = true then filterObjects glob rest
      else
        match globMatches pathMatch glob object.key with
        | .error problem => .error problem
        | .ok fits =>
            match filterObjects glob rest with
            | .error problem => .error problem
            | .ok later => .ok (if fits = true then object :: later else later)

/-- `sort.Slice` leaves the order of equal objects open. -/
def sortObjects (sortBy : String) (objects : List ListedObject) : List ListedObject :=
  if sortBy = "mtime" then
    objects.mergeSort (fun left right =>
      if left.lastModified = right.lastModified then decide (left.key ≤ right.key)
      else decide (left.lastModified < right.lastModified))
  else objects.mergeSort (fun left right => decide (left.key ≤ right.key))

def filterAndSortObjects (objects : List ListedObject) (globPattern sortBy : String) :
    Except String (List ListedObject) :=
  match filterObjects pathMatch (if globPattern = "" then "*" else globPattern) objects with
  | .error problem => .error problem
  | .ok kept => .ok (sortObjects (if sortBy = "" then "lexical" else sortBy) kept)

def listSftpObjects (cfg : SftpConfig) (steps : List WalkStep) :
    Except String (List ListedObject) :=
  match walkFiles cfg steps [] with
  | .error problem => .error problem
  | .ok raw => filterAndSortObjects pathMatch raw cfg.glob cfg.sort

end Listing

/-- The map `seen` of a connector's `cursor`; what is no text is passed over. -/
def seenOf (cursor : Option Value) : List (String × String) :=
  match cursor with
  | some (.object fields) =>
      match fields.lookup "seen" with
      | some (.object entries) =>
          entries.filterMap (fun entry =>
            match entry.2 with
            | .text etag => some (entry.1, etag)
            | _ => none)
      | _ => []
  | _ => []

/-- Quarantined copies are never taken up again. -/
def underFailed (key : String) : Bool :=
  decide ("/failed/".toList <:+: key.toList) || "failed/".toList.isPrefixOf key.toList

def isNew (seen : List (String × String)) (object : ListedObject) : Bool :=
  !underFailed object.key && !(seen.lookup object.key == some object.etag)

def newObjects (seen : List (String × String)) (listed : List ListedObject) : List ListedObject :=
  listed.filter (isNew seen)

section Complete

variable (pathMatch : String → String → Except String Bool) (cfg : SftpConfig)

def MatchesGlob (key : String) : Prop :=
  globMatches pathMatch (if cfg.glob = "" then "*" else cfg.glob) key = .ok true

structure Wanted (step : WalkStep) (object : ListedObject) : Prop where
  regular : ∃ info, step.info = some info ∧ info.regular = true
  eligible : candidate cfg step = some object
  fits : MatchesGlob pathMatch cfg object.key
  apart : underFailed object.key = false

structure Compared (object : ListedObject) : Prop where
  file : endsInSlash object.key = false
  fits : MatchesGlob pathMatch cfg object.key
  apart : underFailed object.key = false

def reached (steps : List WalkStep) : List ListedObject :=
  (steps.filterMap (candidate cfg)).take cfg.maxListEntries.toNat

/-- Every run that lists the tree and finds nothing new has all wanted files in
its cursor. -/
def IdleIsComplete (steps : List WalkStep) (listed : List ListedObject) : Prop :=
  ∀ cursor : Option Value, newObjects (seenOf cursor) listed = [] →
    ∀ step ∈ steps, ∀ object, Wanted pathMatch cfg step object →
      (seenOf cursor).lookup object.key = some object.etag

/-- Each wanted file is within the part of the walk that is not cut off, itself
or as another of the same key and fingerprint, and its key names a file. -/
def WithinReach (steps : List WalkStep) : Prop :=
  ∀ step ∈ steps, ∀ object, Wanted pathMatch cfg step object →
    endsInSlash object.key = false ∧
      ∃ other ∈ reached cfg steps, other.key = object.key ∧ other.etag = object.etag

def Conflicting (steps : List WalkStep) : Prop :=
  ∃ first ∈ reached cfg steps, ∃ second ∈ reached cfg steps, Compared pathMatch cfg first ∧
    first.key = second.key ∧ first.etag ≠ second.etag

end Complete

section Proofs

variable {pathMatch : String → String → Except String Bool} {cfg : SftpConfig}

private theorem parseSftpConfig_limits {reader : NumberReader} {config : Option Data}
    (parsed : parseSftpConfig reader config = .ok cfg) :
    0 < cfg.maxListEntries ∧ cfg.maxListEntries ≤ 10000 := by
  unfold parseSftpConfig at parsed
  split at parsed
  · cases parsed
  · simp only at parsed
    split at parsed
    · cases parsed
    · split at parsed
      · cases parsed
      · rename_i within
        cases parsed
        omega

theorem walkFiles_ok {steps : List WalkStep} :
    ∀ {raw final : List ListedObject}, (raw.length : Int) < cfg.maxListEntries →
      walkFiles cfg steps raw = .ok final →
      final = raw ++ (steps.filterMap (candidate cfg)).take
        (cfg.maxListEntries.toNat - raw.length) := by
  induction steps with
  | nil =>
      intro raw final _room walked
      cases walked
      rw [List.filterMap_nil, List.take_nil, List.append_nil]
  | cons step rest ih =>
      intro raw final room walked
      unfold walkFiles at walked
      split at walked
      · cases walked
      · split at walked
        · rename_i skipped
          rw [List.filterMap_cons_none skipped]
          exact ih room walked
        · rename_i object found
          rw [List.filterMap_cons_some found]
          have grown : ((raw ++ [object]).length : Int) = raw.length + 1 := by
            rw [List.length_append, List.length_singleton]
            omega
          split at walked
          · rename_i full
            cases walked
            have last : cfg.maxListEntries.toNat - raw.length = 0 + 1 := by omega
            rw [last, List.take_succ_cons, List.take_zero]
          · rename_i more
            have deeper := ih (by omega) walked
            have left : cfg.maxListEntries.toNat - raw.length =
                (cfg.maxListEntries.toNat - (raw ++ [object]).length) + 1 := by omega
            rw [deeper, left, List.take_succ_cons, List.append_assoc]
            rfl

theorem mem_filterObjects {glob : String} {objects kept : List ListedObject}
    (filtered : filterObjects pathMatch glob objects = .ok kept) (object : ListedObject) :
    object ∈ kept ↔ object ∈ objects ∧ endsInSlash object.key = false ∧
      globMatches pathMatch glob object.key = .ok true := by
  induction objects generalizing kept with
  | nil =>
      cases filtered
      simp
  | cons first rest ih =>
      unfold filterObjects at filtered
      split at filtered
      · rename_i slash
        rw [ih filtered]
        constructor
        · rintro ⟨member, others⟩
          exact ⟨List.mem_cons_of_mem _ member, others⟩
        · rintro ⟨member, file, fits⟩
          rcases List.mem_cons.mp member with same | later
          · rw [same, slash] at file
            cases file
          · exact ⟨later, file, fits⟩
      · rename_i file
        split at filtered
        · cases filtered
        · rename_i fits matched
          split at filtered
          · cases filtered
          · rename_i later passed
            cases filtered
            cases fits with
            | true =>
                rw [if_pos rfl, List.mem_cons, List.mem_cons, ih passed]
                constructor
                · rintro (same | ⟨member, others⟩)
                  · rw [same]
                    exact ⟨.inl rfl, Bool.eq_false_iff.mpr file, matched⟩
                  · exact ⟨.inr member, others⟩
                · rintro ⟨same | member, others⟩
                  · exact .inl same
                  · exact .inr ⟨member, others⟩
            | false =>
                rw [if_neg (by decide), ih passed, List.mem_cons]
                constructor
                · rintro ⟨member, others⟩
                  exact ⟨.inr member, others⟩
                · rintro ⟨same | member, others⟩
                  · rw [same, matched] at others
                    cases others.2
                  · exact ⟨member, others⟩

private theorem mem_sortObjects {sortBy : String} {objects : List ListedObject}
    {object : ListedObject} :
    object ∈ sortObjects sortBy objects ↔ object ∈ objects := by
  unfold sortObjects
  split
  · exact List.mem_mergeSort
  · exact List.mem_mergeSort

theorem mem_listSftpObjects {steps : List WalkStep} {listed : List ListedObject}
    (bounded : 0 < cfg.maxListEntries)
    (lists : listSftpObjects pathMatch cfg steps = .ok listed) (object : ListedObject) :
    object ∈ listed ↔ object ∈ reached cfg steps ∧ endsInSlash object.key = false ∧
      MatchesGlob pathMatch cfg object.key := by
  unfold listSftpObjects at lists
  split at lists
  · cases lists
  rename_i raw walked
  have room : (([] : List ListedObject).length : Int) < cfg.maxListEntries := bounded
  have cut := walkFiles_ok room walked
  rw [List.nil_append] at cut
  unfold filterAndSortObjects at lists
  split at lists
  · cases lists
  rename_i kept filtered
  cases lists
  rw [mem_sortObjects, mem_filterObjects filtered, cut]
  rfl

theorem newObjects_eq_nil {seen : List (String × String)} {listed : List ListedObject} :
    newObjects seen listed = [] ↔
      ∀ object ∈ listed, underFailed object.key = false →
        seen.lookup object.key = some object.etag := by
  unfold newObjects isNew
  rw [List.filter_eq_nil_iff]
  constructor
  · intro nothing object member apart
    have old := nothing object member
    simpa [apart] using old
  · intro covered object member
    cases failed : underFailed object.key with
    | true => simp
    | false =>
        have found := covered object member failed
        simp [found]

def cursorOf (pairs : List (String × String)) : Value :=
  .object [("seen", .object (pairs.map (fun pair => (pair.1, .text pair.2))))]

theorem seenOf_cursorOf (pairs : List (String × String)) :
    seenOf (some (cursorOf pairs)) = pairs := by
  unfold seenOf cursorOf
  simp only [List.lookup_cons_self]
  induction pairs with
  | nil => rfl
  | cons pair rest ih =>
      rw [List.map_cons, List.filterMap_cons, ih]

private theorem lookup_of_consistent {pairs : List (String × String)} {key etag : String}
    (member : (key, etag) ∈ pairs)
    (consistent : ∀ pair ∈ pairs, pair.1 = key → pair.2 = etag) :
    pairs.lookup key = some etag := by
  induction pairs with
  | nil => cases member
  | cons first rest ih =>
      obtain ⟨own, held⟩ := first
      by_cases same : key = own
      · subst same
        have agrees : held = etag := consistent (key, held) List.mem_cons_self rfl
        rw [List.lookup_cons_self, agrees]
      · have other : (key == own) = false := by simpa using same
        rw [List.lookup_cons, other]
        rcases List.mem_cons.mp member with first | later
        · cases first
          exact absurd rfl same
        · exact ih later (fun pair inside => consistent pair (List.mem_cons_of_mem _ inside))

private theorem mem_of_lookup_eq_some {pairs : List (String × String)} {key etag : String}
    (found : pairs.lookup key = some etag) : (key, etag) ∈ pairs := by
  obtain ⟨before, after, split, _⟩ := List.lookup_eq_some_iff.mp found
  rw [split]
  exact List.mem_append_right _ List.mem_cons_self

theorem Compared.of_key {first second : ListedObject} (compared : Compared pathMatch cfg first)
    (same : second.key = first.key) : Compared pathMatch cfg second := by
  constructor
  · rw [same]
    exact compared.file
  · rw [same]
    exact compared.fits
  · rw [same]
    exact compared.apart

section Directions

variable {steps : List WalkStep} {listed : List ListedObject}

theorem lookup_of_idle (bounded : 0 < cfg.maxListEntries)
    (lists : listSftpObjects pathMatch cfg steps = .ok listed) {seen : List (String × String)}
    (idle : newObjects seen listed = []) {object : ListedObject}
    (member : object ∈ reached cfg steps) (compared : Compared pathMatch cfg object) :
    seen.lookup object.key = some object.etag := by
  have inside : object ∈ listed :=
    (mem_listSftpObjects bounded lists object).mpr ⟨member, compared.file, compared.fits⟩
  exact newObjects_eq_nil.mp idle object inside compared.apart

private theorem complete_of_conflicting (bounded : 0 < cfg.maxListEntries)
    (lists : listSftpObjects pathMatch cfg steps = .ok listed)
    (conflicting : Conflicting pathMatch cfg steps) :
    IdleIsComplete pathMatch cfg steps listed := by
  obtain ⟨first, firstMember, second, secondMember, compared, same, apart⟩ := conflicting
  intro cursor idle
  have one := lookup_of_idle bounded lists idle firstMember compared
  have two := lookup_of_idle bounded lists idle secondMember (compared.of_key same.symm)
  rw [same, two] at one
  exact absurd (Option.some.inj one).symm apart

private theorem complete_of_withinReach (bounded : 0 < cfg.maxListEntries)
    (lists : listSftpObjects pathMatch cfg steps = .ok listed)
    (within : WithinReach pathMatch cfg steps) : IdleIsComplete pathMatch cfg steps listed := by
  intro cursor idle step member object wanted
  obtain ⟨file, other, otherMember, sameKey, sameToken⟩ := within step member object wanted
  have compared : Compared pathMatch cfg object :=
    { file := file, fits := wanted.fits, apart := wanted.apart }
  have found := lookup_of_idle bounded lists idle otherMember (compared.of_key sameKey)
  rw [sameKey, sameToken] at found
  exact found

private theorem idle_of_reached (bounded : 0 < cfg.maxListEntries)
    (lists : listSftpObjects pathMatch cfg steps = .ok listed)
    (consistent : ¬Conflicting pathMatch cfg steps) :
    newObjects (listed.map (fun object => (object.key, object.etag))) listed = [] := by
  rw [newObjects_eq_nil]
  intro object member apart
  apply lookup_of_consistent
  · exact List.mem_map.mpr ⟨object, member, rfl⟩
  · intro pair pairMember sameKey
    obtain ⟨other, otherMember, rfl⟩ := List.mem_map.mp pairMember
    by_contra different
    obtain ⟨inside, file, fits⟩ := (mem_listSftpObjects bounded lists object).mp member
    have otherInside := ((mem_listSftpObjects bounded lists other).mp otherMember).1
    exact consistent ⟨object, inside, other, otherInside,
      { file := file, fits := fits, apart := apart }, sameKey.symm, fun h => different h.symm⟩

private theorem withinReach_of_complete (bounded : 0 < cfg.maxListEntries)
    (lists : listSftpObjects pathMatch cfg steps = .ok listed)
    (consistent : ¬Conflicting pathMatch cfg steps)
    (complete : IdleIsComplete pathMatch cfg steps listed) :
    WithinReach pathMatch cfg steps := by
  intro step member object wanted
  have idle := idle_of_reached bounded lists consistent
  rw [← seenOf_cursorOf (listed.map (fun object => (object.key, object.etag)))] at idle
  have found := complete _ idle step member object wanted
  rw [seenOf_cursorOf] at found
  obtain ⟨other, otherMember, same⟩ := List.mem_map.mp (mem_of_lookup_eq_some found)
  have sameKey : other.key = object.key := congrArg Prod.fst same
  have sameToken : other.etag = object.etag := congrArg Prod.snd same
  obtain ⟨inside, file, _fits⟩ := (mem_listSftpObjects bounded lists other).mp otherMember
  rw [sameKey] at file
  exact ⟨file, other, inside, sameKey, sameToken⟩

end Directions

/-- For every accepted configuration and every tree that is listed: an idle run
has seen all wanted files exactly when the cut leaves none of them out, or when
the files that are left allow no idle run. -/
theorem idle_watch_complete_iff (pathMatch : String → String → Except String Bool)
    {reader : NumberReader} {config : Option Data} {cfg : SftpConfig}
    (parsed : parseSftpConfig reader config = .ok cfg) {steps : List WalkStep}
    {listed : List ListedObject} (lists : listSftpObjects pathMatch cfg steps = .ok listed) :
    IdleIsComplete pathMatch cfg steps listed ↔
      Conflicting pathMatch cfg steps ∨ WithinReach pathMatch cfg steps := by
  have bounded := (parseSftpConfig_limits parsed).1
  constructor
  · intro complete
    by_cases conflicting : Conflicting pathMatch cfg steps
    · exact .inl conflicting
    · exact .inr (withinReach_of_complete bounded lists conflicting complete)
  · rintro (conflicting | within)
    · exact complete_of_conflicting bounded lists conflicting
    · exact complete_of_withinReach bounded lists within

end Proofs

/-! ### A tree that is cut off -/

def dropNumbers : NumberReader :=
  { truncated := fun text => if text = "1" then 1 else if text = "2" then 2 else 0
    parseInt := fun _ => none }

def dropConfig (entries : String) : Data :=
  [("host", .text "sftp.example.com"), ("username", .text "drop"),
    ("max_list_entries", .number entries)]

def dropSettings (entries : Int) : SftpConfig :=
  { host := "sftp.example.com", port := 22, username := "drop", path := "", glob := "*"
    sort := "lexical", stagingBucket := "migration", stagingPrefix := "sftp-landing/"
    insecureIgnoreHostKey := false, hostKey := "", maxFileBytes := 1073741824
    maxListEntries := entries, settleAge := 30000000000 }

def matchAll (pattern name : String) : Except String Bool :=
  if pattern = "*" then .ok (!name.toList.contains '/') else .error "syntax error in pattern"

def dropFile (path : String) : WalkStep :=
  { path := path, info := some { size := 12, modTime := 1700000000, age := 60000000000 } }

def dropDirectory : List WalkStep :=
  [{ path := ".", info := some { isDir := true, size := 0, modTime := 1700000000, age := 0 } },
    dropFile "a.csv", dropFile "b.csv"]

def dropObject (key : String) : ListedObject :=
  { key := key, etag := "1700000000:12", size := 12, lastModified := 1700000000 }

private theorem dropFile_wanted {entries : Int} {key : String}
    (named : key = "a.csv" ∨ key = "b.csv") :
    Wanted matchAll (dropSettings entries) (dropFile key) (dropObject key) := by
  constructor
  · exact ⟨_, rfl, rfl⟩
  · rcases named with rfl | rfl
    · change some _ = _
      decide +kernel
    · change some _ = _
      decide +kernel
  · rcases named with rfl | rfl
    · change globMatches matchAll "*" "a.csv" = .ok true
      decide +kernel
    · change globMatches matchAll "*" "b.csv" = .ok true
      decide +kernel
  · rcases named with rfl | rfl
    · decide +kernel
    · decide +kernel

/-- A listing of one entry, which is in the cursor: the second file is never seen. -/
theorem cut_file_never_seen :
    parseSftpConfig dropNumbers (some (dropConfig "1")) = .ok (dropSettings 1) ∧
      listSftpObjects matchAll (dropSettings 1) dropDirectory = .ok [dropObject "a.csv"] ∧
      ¬IdleIsComplete matchAll (dropSettings 1) dropDirectory [dropObject "a.csv"] := by
  refine ⟨by decide +kernel, by decide +kernel, ?_⟩
  intro complete
  have missing := complete (some (cursorOf [("a.csv", "1700000000:12")])) (by decide +kernel)
    (dropFile "b.csv") (by simp [dropDirectory]) (dropObject "b.csv") (dropFile_wanted (.inr rfl))
  rw [seenOf_cursorOf] at missing
  revert missing
  decide +kernel

/-- A listing that is not cut off. -/
theorem whole_directory_seen :
    listSftpObjects matchAll (dropSettings 2) dropDirectory =
        .ok (sortObjects "lexical" [dropObject "a.csv", dropObject "b.csv"]) ∧
      IdleIsComplete matchAll (dropSettings 2) dropDirectory
        (sortObjects "lexical" [dropObject "a.csv", dropObject "b.csv"]) := by
  have parsed : parseSftpConfig dropNumbers (some (dropConfig "2")) = .ok (dropSettings 2) := by
    decide +kernel
  have walked : walkFiles (dropSettings 2) dropDirectory [] =
      .ok [dropObject "a.csv", dropObject "b.csv"] := by
    decide +kernel
  have filtered : filterObjects matchAll "*" [dropObject "a.csv", dropObject "b.csv"] =
      .ok [dropObject "a.csv", dropObject "b.csv"] := by
    decide +kernel
  have lists : listSftpObjects matchAll (dropSettings 2) dropDirectory =
      .ok (sortObjects "lexical" [dropObject "a.csv", dropObject "b.csv"]) := by
    unfold listSftpObjects
    rw [walked]
    change filterAndSortObjects matchAll _ "*" "lexical" = _
    unfold filterAndSortObjects
    rw [if_neg (by decide), filtered]
    rfl
  have kept : reached (dropSettings 2) dropDirectory = [dropObject "a.csv", dropObject "b.csv"] := by
    decide +kernel
  refine ⟨lists, (idle_watch_complete_iff matchAll parsed lists).mpr (.inr ?_)⟩
  intro step member object wanted
  rw [kept]
  have eligible := wanted.eligible
  simp only [dropDirectory, List.mem_cons, List.not_mem_nil, or_false] at member
  rcases member with rfl | rfl | rfl
  · cases eligible
  · have same : candidate (dropSettings 2) (dropFile "a.csv") = some (dropObject "a.csv") := by
      decide +kernel
    rw [same] at eligible
    cases eligible
    exact ⟨by decide +kernel, dropObject "a.csv", by simp, rfl, rfl⟩
  · have same : candidate (dropSettings 2) (dropFile "b.csv") = some (dropObject "b.csv") := by
      decide +kernel
    rw [same] at eligible
    cases eligible
    exact ⟨by decide +kernel, dropObject "b.csv", by simp, rfl, rfl⟩

end MigrationPlatform.Watch
