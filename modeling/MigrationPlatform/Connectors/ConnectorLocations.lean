/-
Where a watched connector may look and stage its files.

The API checks a configuration when it is stored and the orchestrator checks the
location that it reads from it. Both have the same rule for buckets and prefixes,
but the API trims white space from the fields and the orchestrator does not.
`locationsAgree_iff` says for which configurations that matters.
-/

import Mathlib
import MigrationPlatform.Foundation.Decimals
import MigrationPlatform.Foundation.Trimming
import MigrationPlatform.Watch.SftpListing
import MigrationPlatform.Batch.ArchiveNames

namespace MigrationPlatform.Connectors

open Trimming
open Batch (isSpaceRune trimRunes trimSpace trimSlashes)
open Watch (NumberReader sftpSettings parseSftpConfig textOr)

inductive LocationProblem
  | bucketNotAllowed (bucket : String) (allowed : List String)
  | mustStartWith (field required location : String)
deriving DecidableEq, Repr

/-- `debug` stands for the format `{:?}`. -/
def LocationProblem.text (debug : String → String) : LocationProblem → String
  | .bucketNotAllowed bucket allowed =>
      "bucket " ++ debug bucket ++ " is not allowed for watched connectors; allowed: " ++
        ", ".intercalate allowed
  | .mustStartWith field required location =>
      field ++ " must start with " ++ required ++ " (got " ++ debug location ++ ")"

/-- A text of the configuration as the API reads it: absent and other values are
empty, and white space around it is cut off. -/
def configText (cfg : Value) (key : String) : String := trimSpace (textField (mapFields cfg) key)

def checkBucket (bucket : String) (allowed : List String) : Except LocationProblem Unit :=
  if bucket ∈ allowed then .ok () else .error (.bucketNotAllowed bucket allowed)

abbrev withoutSlashes (key : List Char) : List Char := key.dropWhile (fun char => decide (char = '/'))

def checkPrefix (field : String) (org : Int) (location : String) : Except LocationProblem Unit :=
  let path := withoutSlashes location.toList
  if '\\' ∈ path ∨ (pathSegments path).contains ['.', '.'] = true ∨
      (orgObjectPrefix org).toList.isPrefixOf path = false then
    .error (.mustStartWith field (orgObjectPrefix org) location)
  else .ok ()

def isLanding (location : List Char) : Bool :=
  trimSlashes location = [] || trimSlashes location = "sftp-landing".toList

def firstNonempty (first second default : String) : String :=
  if first ≠ "" then first else if second ≠ "" then second else default

def checkConnectorLocations (kind : String) (cfg : Value) (org : Int) (allowed : List String) :
    Except LocationProblem Unit :=
  if kind = "watched_prefix" then
    let bucket := if configText cfg "bucket" ≠ "" then configText cfg "bucket"
      else configText cfg "s3_bucket"
    match checkBucket bucket allowed with
    | .error problem => .error problem
    | .ok _ => checkPrefix "prefix" org (configText cfg "prefix")
  else if kind = "watched_sftp" then
    let bucket := firstNonempty (configText cfg "staging_bucket") (configText cfg "bucket") "migration"
    match checkBucket bucket allowed with
    | .error problem => .error problem
    | .ok _ =>
        if isLanding (configText cfg "staging_prefix").toList then .ok ()
        else checkPrefix "staging_prefix" org (configText cfg "staging_prefix")
  else .ok ()

/-- The kinds that the column holds. -/
inductive StoredKind
  | salesforce
  | watchedPrefix
  | custom
  | watchedSftp
deriving DecidableEq, Repr

def StoredKind.name : StoredKind → String
  | .salesforce => "salesforce"
  | .watchedPrefix => "watched_prefix"
  | .custom => "custom"
  | .watchedSftp => "watched_sftp"

/-- Decoding the configuration into a map; null leaves it nil. -/
def decodeConfig : Value → Except String (Option Data)
  | .object fields => .ok (some fields)
  | .null => .ok none
  | _ => .error "parse connector config"

def watchedLocation (org : Int) (config : Option Data) : Location :=
  let cfg := config.getD []
  { orgID := org
    bucket := if textField cfg "bucket" = "" then textField cfg "s3_bucket" else textField cfg "bucket"
    key := textField cfg "prefix" }

def sftpLocation (reader : NumberReader) (org : Int) (config : Option Data) : Except String Location :=
  match parseSftpConfig reader config with
  | .error problem => .error problem
  | .ok settings =>
      .ok
        { orgID := org
          bucket := settings.stagingBucket
          key := if isLanding settings.stagingPrefix.toList then orgObjectPrefix org ++ "sftp-landing/"
            else settings.stagingPrefix }

def runLocation (reader : NumberReader) (kind : StoredKind) (cfg : Value) (org : Int) :
    Except String Location :=
  match decodeConfig cfg with
  | .error problem => .error problem
  | .ok config =>
      match kind with
      | .watchedPrefix => .ok (watchedLocation org config)
      | .watchedSftp => sftpLocation reader org config
      | _ => .error "not a watched arrival connector"

/-- The key stands under the prefix of the organization and stays there. -/
def Within (org : Int) (key : List Char) : Prop :=
  ∃ slashes rest, key = slashes ++ (orgObjectPrefix org).toList ++ rest ∧
    (∀ char ∈ slashes, char = '/') ∧
    ['.', '.'] ∉ pathSegments ((orgObjectPrefix org).toList ++ rest)

structure LocationsAgree (reader : NumberReader) (kind : StoredKind) (cfg : Value) (org : Int)
    (allowed : List String) : Prop where
  accepted : checkConnectorLocations kind.name cfg org allowed = .ok () →
    ∀ location, runLocation reader kind cfg org = .ok location →
      checkOrgLocation allowed location = none
  confined : checkConnectorLocations kind.name cfg org allowed = .ok () →
    ∀ location, runLocation reader kind cfg org = .ok location → Within org location.key.toList
  confinedRun : ∀ location : Location, checkOrgLocation allowed location = none →
    Within location.orgID location.key.toList

def writtenBucket (kind : StoredKind) (fields : Data) : String :=
  match kind with
  | .watchedSftp =>
      firstNonempty (textField fields "staging_bucket") (textField fields "bucket") "migration"
  | _ => firstNonempty (textField fields "bucket") (textField fields "s3_bucket") ""

def writtenPrefix (kind : StoredKind) (fields : Data) : List Char :=
  match kind with
  | .watchedSftp => (textField fields "staging_prefix").toList
  | _ => (textField fields "prefix").toList

/-- The bucket as it is written is allowed; no white space stands in front of the
prefix, nor behind one that stands for the landing directory. -/
structure AsWritten (kind : StoredKind) (fields : Data) (org : Int) (allowed : List String) : Prop where
  owned : 0 < org
  bucket : writtenBucket kind fields ∈ allowed
  front : ∀ char ∈ (writtenPrefix kind fields).head?, isSpaceRune char = false
  back : kind = .watchedSftp → isLanding (trimRunes (writtenPrefix kind fields)) = true →
    ∀ char ∈ (writtenPrefix kind fields).getLast?, isSpaceRune char = false

structure Fits (org : Int) (location : List Char) : Prop where
  clean : '\\' ∉ withoutSlashes location
  stays : ['.', '.'] ∉ pathSegments (withoutSlashes location)
  starts : (orgObjectPrefix org).toList <+: withoutSlashes location

variable {org : Int}

theorem checkPrefix_ok_iff {field : String} {location : String} :
    checkPrefix field org location = .ok () ↔ Fits org location.toList := by
  unfold checkPrefix
  simp only
  constructor
  · intro passed
    split at passed
    · cases passed
    · rename_i fits
      simp only [List.contains_iff_mem, not_or, Bool.not_eq_false] at fits
      exact ⟨fits.1, fits.2.1, List.isPrefixOf_iff_prefix.mp fits.2.2⟩
  · intro fits
    rw [if_neg]
    simp only [List.contains_iff_mem, not_or, Bool.not_eq_false]
    exact ⟨fits.clean, fits.stays, List.isPrefixOf_iff_prefix.mpr fits.starts⟩

variable {location : Location} {allowed : List String}

theorem checkOrgLocation_none_iff :
    checkOrgLocation allowed location = none ↔
      0 < location.orgID ∧ location.bucket ∈ allowed ∧ Fits location.orgID location.key.toList := by
  unfold checkOrgLocation
  simp only
  constructor
  · intro passed
    split at passed
    · cases passed
    · rename_i owned
      split at passed
      · cases passed
      · rename_i bucket
        split at passed
        · cases passed
        · rename_i clean
          split at passed
          · cases passed
          · rename_i starts
            rw [not_or] at clean
            refine ⟨Int.not_le.mp owned, not_not.mp bucket, clean.1, clean.2, ?_⟩
            exact List.isPrefixOf_iff_prefix.mp ((Bool.not_eq_false _).mp starts)
  · rintro ⟨owned, bucket, fits⟩
    rw [if_neg (Int.not_le.mpr owned), if_neg (not_not.mpr bucket),
      if_neg (not_or.mpr ⟨fits.clean, fits.stays⟩), if_neg]
    rw [Bool.not_eq_false]
    exact List.isPrefixOf_iff_prefix.mpr fits.starts

theorem Fits.within {location : List Char} (fits : Fits org location) :
    Within org location := by
  obtain ⟨slashes, parts, all⟩ := exists_dropWhile (p := fun char => decide (char = '/')) location
  obtain ⟨rest, whole⟩ := fits.starts
  refine ⟨slashes, rest, ?_, fun char member => of_decide_eq_true (all char member), ?_⟩
  · rw [List.append_assoc, whole]
    exact parts
  · rw [whole]
    exact fits.stays

private theorem pathSegments_ne_nil (path : List Char) : pathSegments path ≠ [] := by
  cases path with
  | nil => exact List.cons_ne_nil _ _
  | cons char rest =>
      rw [pathSegments]
      split
      · exact List.cons_ne_nil _ _
      · split <;> exact List.cons_ne_nil _ _

def extendLast (back : List Char) : List (List Char) → List (List Char)
  | [] => []
  | [segment] => [segment ++ back]
  | segment :: next :: others => segment :: extendLast back (next :: others)

private theorem pathSegments_plain {back : List Char} (plain : '/' ∉ back) :
    pathSegments back = [back] := by
  induction back with
  | nil => rfl
  | cons char rest ih =>
      rw [List.mem_cons, not_or] at plain
      rw [pathSegments, if_neg (Ne.symm plain.1), ih plain.2]

private theorem pathSegments_append {back : List Char} (plain : '/' ∉ back) (path : List Char) :
    pathSegments (path ++ back) = extendLast back (pathSegments path) := by
  induction path with
  | nil => exact pathSegments_plain plain
  | cons char rest ih =>
      rw [List.cons_append, pathSegments, pathSegments, ih]
      cases parts : pathSegments rest with
      | nil => exact absurd parts (pathSegments_ne_nil rest)
      | cons segment others =>
          split
          · rfl
          · cases others <;> rfl

private theorem mem_extendLast {back segment : List Char} {segments : List (List Char)}
    (member : segment ∈ extendLast back segments) :
    segment ∈ segments ∨ ∃ own, segment = own ++ back ∧ own ∈ segments := by
  induction segments with
  | nil => cases member
  | cons first others ih =>
      cases others with
      | nil => exact Or.inr ⟨first, List.mem_singleton.mp member, List.mem_cons_self⟩
      | cons next others =>
          rcases List.mem_cons.mp member with same | later
          · exact Or.inl (List.mem_cons.mpr (Or.inl same))
          · rcases ih later with inside | ⟨own, whole, inside⟩
            · exact Or.inl (List.mem_cons_of_mem _ inside)
            · exact Or.inr ⟨own, whole, List.mem_cons_of_mem _ inside⟩

private theorem head_orgObjectPrefix (org : Int) :
    ∃ rest, (orgObjectPrefix org).toList = 'o' :: rest := by
  unfold orgObjectPrefix
  rw [String.toList_append, String.toList_append]
  exact ⟨_, rfl⟩

private theorem space_ne_slash {char : Char} (space : isSpaceRune char = true) : char ≠ '/' := by
  rintro rfl
  exact absurd space (by decide)

theorem Fits.starts_with {location : List Char} (fits : Fits org location) :
    ∃ slashes rest, location = slashes ++ 'o' :: rest ∧ withoutSlashes location = 'o' :: rest ∧
      ∀ char ∈ slashes, char = '/' := by
  obtain ⟨slashes, parts, all⟩ := exists_dropWhile (p := fun char => decide (char = '/')) location
  obtain ⟨behind, whole⟩ := fits.starts
  obtain ⟨rest, head⟩ := head_orgObjectPrefix org
  rw [head, List.cons_append] at whole
  refine ⟨slashes, rest ++ behind, ?_, whole.symm, fun char member => of_decide_eq_true (all char member)⟩
  rw [whole]
  exact parts

theorem Fits.front {location : List Char} (fits : Fits org location) :
    ∀ char ∈ location.head?, isSpaceRune char = false := by
  obtain ⟨slashes, rest, parts, _, all⟩ := fits.starts_with
  rw [parts]
  intro char head
  cases slashes with
  | nil =>
      cases head
      decide
  | cons slash slashes =>
      cases head
      rw [all char List.mem_cons_self]
      decide

theorem Fits.append_space {location back : List Char} (fits : Fits org location)
    (space : ∀ char ∈ back, isSpaceRune char = true) : Fits org (location ++ back) := by
  have plain : '/' ∉ back := fun member => space_ne_slash (space _ member) rfl
  obtain ⟨slashes, rest, parts, behind, all⟩ := fits.starts_with
  have longer : withoutSlashes (location ++ back) = withoutSlashes location ++ back := by
    rw [behind, parts, List.append_assoc, List.cons_append]
    exact dropWhile_append_of_head (fun char member => decide_eq_true (all char member))
      (fun char head => by cases head; decide)
  refine ⟨?_, ?_, ?_⟩
  · rw [longer, List.mem_append, not_or]
    exact ⟨fits.clean, fun member => absurd (space _ member) (by decide)⟩
  · rw [longer, pathSegments_append plain]
    intro member
    rcases mem_extendLast member with inside | ⟨own, whole, segment⟩
    · exact fits.stays inside
    · cases back with
      | nil =>
          rw [List.append_nil] at whole
          exact fits.stays (whole ▸ segment)
      | cons char back =>
          have dot : char = '.' := by
            have inside : char ∈ ['.', '.'] := by
              rw [whole]
              simp
            simpa using inside
          rw [dot] at space
          exact absurd (space '.' List.mem_cons_self) (by decide)
  · rw [longer]
    exact fits.starts.trans (List.prefix_append _ _)

theorem fits_trim_iff {location : List Char} (fits : Fits org (trimRunes location)) :
    Fits org location ↔ ∀ char ∈ location.head?, isSpaceRune char = false := by
  constructor
  · exact Fits.front
  · intro front
    obtain ⟨back, parts, space⟩ := exists_trim_of_head front
    rw [parts]
    exact fits.append_space space

private theorem trimSlashes_parts (location : List Char) :
    ∃ front back, location = front ++ trimSlashes location ++ back ∧
      (∀ char ∈ front, char = '/') ∧ ∀ char ∈ back, char = '/' := by
  obtain ⟨front, back, parts, before, behind⟩ := exists_trim (p := fun char => char == '/') location
  exact ⟨front, back, parts, fun char member => eq_of_beq (before char member),
    fun char member => eq_of_beq (behind char member)⟩

private theorem isLanding_plain {location : List Char} (landing : isLanding location = true) :
    ∀ char ∈ location, isSpaceRune char = false := by
  obtain ⟨front, back, parts, before, behind⟩ := trimSlashes_parts location
  have slash : isSpaceRune '/' = false := by decide
  have middle : ∀ char ∈ trimSlashes location, isSpaceRune char = false := by
    intro char member
    unfold isLanding at landing
    rcases Bool.or_eq_true_iff.mp landing with empty | name
    · rw [of_decide_eq_true empty] at member
      cases member
    · rw [of_decide_eq_true name] at member
      have noneOf : "sftp-landing".toList.all (fun char => !isSpaceRune char) = true := by decide
      have nonSpace := List.all_eq_true.mp noneOf char member
      simpa using nonSpace
  intro char member
  rw [parts, List.mem_append, List.mem_append] at member
  rcases member with (member | member) | member
  · rw [before char member]
    exact slash
  · exact middle char member
  · rw [behind char member]
    exact slash

private theorem not_isLanding_of_head {slashes rest : List Char}
    (all : ∀ char ∈ slashes, char = '/') :
    ¬isLanding (slashes ++ 'o' :: rest) = true := by
  intro landing
  have head : ∀ char ∈ ('o' :: rest).head?, (char == '/') = false := fun char head => by cases head; decide
  have dropped : (slashes ++ 'o' :: rest).dropWhile (fun char => char == '/') = 'o' :: rest :=
    dropWhile_append_of_head (fun char member => beq_iff_eq.mpr (all char member)) head
  obtain ⟨back, whole, behind⟩ := exists_trim_of_head head
  have same : trimSlashes (slashes ++ 'o' :: rest) =
      Trimming.trim (fun char => char == '/') ('o' :: rest) := by
    unfold trimSlashes Trimming.trim
    rw [dropped, dropWhile_of_head head]
  unfold isLanding at landing
  rw [same] at landing
  cases shape : Trimming.trim (fun char => char == '/') ('o' :: rest) with
  | nil =>
      rw [shape, List.nil_append] at whole
      have impossible := behind 'o' (by rw [← whole]; exact List.mem_cons_self)
      exact absurd impossible (by decide)
  | cons first more =>
      rw [shape] at whole landing
      rw [← (List.cons.inj whole).1] at landing
      rcases Bool.or_eq_true_iff.mp landing with empty | name
      · exact absurd (of_decide_eq_true empty) (List.cons_ne_nil _ _)
      · have heads : some 'o' = some 's' := congrArg List.head? (of_decide_eq_true name)
        exact absurd heads (by decide)

theorem not_fits_of_isLanding {location back : List Char} (landing : isLanding location = true)
    (space : ∀ char ∈ back, isSpaceRune char = true) : ¬Fits org (location ++ back) := by
  intro fits
  have outside : 'o' ∉ back := fun member => absurd (space _ member) (by decide)
  obtain ⟨slashes, rest, parts, _, all⟩ := fits.starts_with
  rcases List.append_eq_append_iff.mp parts with ⟨excess, _, right⟩ | ⟨excess, left, right⟩
  · apply outside
    rw [right]
    simp
  · cases excess with
    | nil =>
        apply outside
        rw [List.nil_append] at right
        rw [← right]
        exact List.mem_cons_self
    | cons first excess =>
        obtain ⟨rfl, _⟩ := List.cons.inj right
        rw [left] at landing
        exact not_isLanding_of_head all landing

theorem pathSegments_slash {front : List Char} (plain : '/' ∉ front) (rest : List Char) :
    pathSegments (front ++ '/' :: rest) = front :: pathSegments rest := by
  induction front with
  | nil => rfl
  | cons char front ih =>
      rw [List.mem_cons, not_or] at plain
      rw [List.cons_append, pathSegments, if_neg (Ne.symm plain.1), ih plain.2]

theorem fits_landing (owned : 0 < org) :
    Fits org (orgObjectPrefix org ++ "sftp-landing/").toList := by
  obtain ⟨number, rfl⟩ := Int.eq_ofNat_of_zero_le (Int.le_of_lt owned)
  have digits : ∀ char ∈ (toString number).toList, char.isDigit = true :=
    fun _char member => Decimals.isDigit_of_mem member
  have key : (orgObjectPrefix (number : Int) ++ "sftp-landing/").toList =
      "orgs".toList ++ '/' :: ((toString number).toList ++ '/' :: "sftp-landing/".toList) := by
    unfold orgObjectPrefix
    rw [String.toList_append, String.toList_append, String.toList_append, List.append_assoc,
      List.append_assoc]
    rfl
  have noSlash : '/' ∉ (toString number).toList := fun member => absurd (digits _ member) (by decide)
  have path : withoutSlashes (orgObjectPrefix (number : Int) ++ "sftp-landing/").toList =
      "orgs".toList ++ '/' :: ((toString number).toList ++ '/' :: "sftp-landing/".toList) := by
    rw [key]
    exact dropWhile_of_head (fun char head => by cases head; decide)
  refine ⟨?_, ?_, ?_⟩
  · rw [path]
    simp only [List.mem_append, List.mem_cons, not_or]
    exact ⟨by decide, by decide, fun member => absurd (digits _ member) (by decide), by decide, by decide⟩
  · rw [path, pathSegments_slash (by decide), pathSegments_slash noSlash, List.mem_cons, List.mem_cons,
      not_or, not_or]
    refine ⟨by decide, ?_, by decide⟩
    intro same
    exact absurd (digits '.' (same ▸ List.mem_cons_self)) (by decide)
  · have whole : withoutSlashes (orgObjectPrefix (number : Int) ++ "sftp-landing/").toList =
        (orgObjectPrefix (number : Int)).toList ++ "sftp-landing/".toList := by
      rw [path, ← key, String.toList_append]
    rw [whole]
    exact List.prefix_append _ _

/-! ### Where the two agree -/

theorem toList_configText (cfg : Value) (key : String) :
    (configText cfg key).toList = trimRunes (textField (mapFields cfg) key).toList := by
  rw [configText, trimSpace, String.toList_ofList]

private theorem check_prefix_ok {cfg : Value}
    (passed : checkConnectorLocations "watched_prefix" cfg org allowed = .ok ()) :
    Fits org (trimRunes (textField (mapFields cfg) "prefix").toList) := by
  unfold checkConnectorLocations at passed
  rw [if_pos rfl] at passed
  simp only at passed
  split at passed
  · cases passed
  · rw [← toList_configText]
    exact checkPrefix_ok_iff.mp passed

private theorem check_sftp_ok {cfg : Value}
    (passed : checkConnectorLocations "watched_sftp" cfg org allowed = .ok ()) :
    isLanding (trimRunes (textField (mapFields cfg) "staging_prefix").toList) = true ∨
      Fits org (trimRunes (textField (mapFields cfg) "staging_prefix").toList) := by
  unfold checkConnectorLocations at passed
  rw [if_neg (by decide), if_pos rfl] at passed
  simp only at passed
  split at passed
  · cases passed
  · rw [← toList_configText]
    split at passed
    · rename_i landing
      exact Or.inl landing
    · exact Or.inr (checkPrefix_ok_iff.mp passed)

variable {reader : NumberReader}

theorem runLocation_of_front {cfg : Value}
    (derived : runLocation reader .watchedPrefix cfg org = .ok location) :
    location = watchedLocation org (some (mapFields cfg)) := by
  unfold runLocation at derived
  cases cfg with
  | object fields =>
      cases derived
      rfl
  | null =>
      cases derived
      rfl
  | bool value => cases derived
  | number text => cases derived
  | text value => cases derived
  | list items => cases derived

theorem sftpLocation_ok {fields : Data}
    (derived : sftpLocation reader org (some fields) = .ok location) :
    location.orgID = org ∧ location.bucket = writtenBucket .watchedSftp fields ∧
      location.key =
        (if isLanding (sftpSettings reader fields).stagingPrefix.toList then
          orgObjectPrefix org ++ "sftp-landing/"
        else (sftpSettings reader fields).stagingPrefix) := by
  unfold sftpLocation parseSftpConfig at derived
  simp only at derived
  split at derived
  · cases derived
  · rename_i settings parsed
    split at parsed
    · cases parsed
    · split at parsed
      · cases parsed
      · cases parsed
        cases derived
        exact ⟨rfl, rfl, rfl⟩

theorem runLocation_sftp {cfg : Value}
    (derived : runLocation reader .watchedSftp cfg org = .ok location) :
    sftpLocation reader org (some (mapFields cfg)) = .ok location := by
  unfold runLocation at derived
  cases cfg with
  | object fields => exact derived
  | null => cases derived
  | bool value => cases derived
  | number text => cases derived
  | text value => cases derived
  | list items => cases derived

private theorem stagingPrefix_eq (reader : NumberReader) (fields : Data) :
    (sftpSettings reader fields).stagingPrefix = textField fields "staging_prefix" ∨
      textField fields "staging_prefix" = "" ∧
        (sftpSettings reader fields).stagingPrefix = "sftp-landing/" := by
  unfold sftpSettings textField
  cases fields.lookup "staging_prefix" with
  | none => exact Or.inr ⟨rfl, rfl⟩
  | some value =>
      cases value with
      | text own => exact Or.inl rfl
      | _ => exact Or.inr ⟨rfl, rfl⟩

theorem prefix_fits_iff {kind : StoredKind} {cfg : Value} (owned : 0 < org)
    (passed : checkConnectorLocations kind.name cfg org allowed = .ok ())
    (derived : runLocation reader kind cfg org = .ok location) :
    Fits org location.key.toList ↔
      (∀ char ∈ (writtenPrefix kind (mapFields cfg)).head?, isSpaceRune char = false) ∧
        (kind = .watchedSftp → isLanding (trimRunes (writtenPrefix kind (mapFields cfg))) = true →
          ∀ char ∈ (writtenPrefix kind (mapFields cfg)).getLast?, isSpaceRune char = false) := by
  cases kind with
  | salesforce =>
      unfold runLocation at derived
      split at derived <;> cases derived
  | custom =>
      unfold runLocation at derived
      split at derived <;> cases derived
  | watchedPrefix =>
      rw [runLocation_of_front derived]
      have own := fits_trim_iff (check_prefix_ok passed)
      constructor
      · intro fits
        exact ⟨own.mp fits, fun impossible => by cases impossible⟩
      · intro written
        exact own.mpr written.1
  | watchedSftp =>
      obtain ⟨_, _, key⟩ := sftpLocation_ok (runLocation_sftp derived)
      rw [key]
      change _ ↔ (∀ char ∈ (textField (mapFields cfg) "staging_prefix").toList.head?, _) ∧
        (_ → isLanding (trimRunes (textField (mapFields cfg) "staging_prefix").toList) = true →
          ∀ char ∈ (textField (mapFields cfg) "staging_prefix").toList.getLast?, _)
      rcases stagingPrefix_eq reader (mapFields cfg) with same | ⟨absent, default⟩
      · rw [same]
        by_cases landing : isLanding (textField (mapFields cfg) "staging_prefix").toList = true
        · rw [if_pos landing]
          have plain := isLanding_plain landing
          refine iff_of_true (fits_landing owned) ⟨?_, fun _ _ => ?_⟩
          · exact fun char head => plain char (List.mem_of_mem_head? head)
          · exact fun char last => plain char (List.mem_of_mem_getLast? last)
        · rw [if_neg landing]
          rcases check_sftp_ok passed with meant | fits
          · constructor
            · intro fits
              obtain ⟨back, parts, space⟩ := exists_trim_of_head fits.front
              rw [parts] at fits
              exact absurd fits (not_fits_of_isLanding meant space)
            · rintro ⟨front, back⟩
              have whole : trimRunes (textField (mapFields cfg) "staging_prefix").toList =
                  (textField (mapFields cfg) "staging_prefix").toList :=
                trim_of_ends front (back rfl meant)
              rw [whole] at meant
              exact absurd meant landing
          · rw [fits_trim_iff fits]
            constructor
            · intro front
              refine ⟨front, fun _ meant => ?_⟩
              rw [← List.append_nil (trimRunes _)] at fits
              exact absurd fits (not_fits_of_isLanding meant (fun _ member => by cases member))
            · exact And.left
      · rw [default, absent]
        have landing : isLanding "sftp-landing/".toList = true := by decide
        rw [if_pos landing]
        exact iff_of_true (fits_landing owned)
          ⟨fun char head => (by cases head), fun _ _ char last => (by cases last)⟩

theorem runLocation_parts {kind : StoredKind} {cfg : Value}
    (derived : runLocation reader kind cfg org = .ok location) :
    location.orgID = org ∧ location.bucket = writtenBucket kind (mapFields cfg) := by
  cases kind with
  | salesforce =>
      unfold runLocation at derived
      split at derived <;> cases derived
  | custom =>
      unfold runLocation at derived
      split at derived <;> cases derived
  | watchedPrefix =>
      rw [runLocation_of_front derived]
      refine ⟨rfl, ?_⟩
      change (if textField (mapFields cfg) "bucket" = "" then textField (mapFields cfg) "s3_bucket"
        else textField (mapFields cfg) "bucket") = firstNonempty _ _ ""
      unfold firstNonempty
      by_cases bucket : textField (mapFields cfg) "bucket" = ""
      · rw [if_pos bucket, if_neg (not_not.mpr bucket)]
        split
        · rfl
        · rename_i empty
          exact not_not.mp empty
      · rw [if_neg bucket, if_pos bucket]
  | watchedSftp =>
      obtain ⟨own, bucket, _⟩ := sftpLocation_ok (runLocation_sftp derived)
      exact ⟨own, bucket⟩

theorem asWritten_iff {kind : StoredKind} {cfg : Value}
    (passed : checkConnectorLocations kind.name cfg org allowed = .ok ())
    (derived : runLocation reader kind cfg org = .ok location) :
    checkOrgLocation allowed location = none ↔ AsWritten kind (mapFields cfg) org allowed := by
  obtain ⟨own, bucket⟩ := runLocation_parts derived
  rw [checkOrgLocation_none_iff, own, bucket]
  constructor
  · rintro ⟨owned, member, fits⟩
    obtain ⟨front, back⟩ := (prefix_fits_iff owned passed derived).mp fits
    exact ⟨owned, member, front, back⟩
  · rintro ⟨owned, member, front, back⟩
    exact ⟨owned, member, (prefix_fits_iff owned passed derived).mpr ⟨front, back⟩⟩

theorem within_of_allowed
    (accepted : checkOrgLocation allowed location = none) : Within location.orgID location.key.toList :=
  (checkOrgLocation_none_iff.mp accepted).2.2.within

theorem locationsAgree_iff (reader : NumberReader) (kind : StoredKind) (cfg : Value) (org : Int)
    (allowed : List String) :
    LocationsAgree reader kind cfg org allowed ↔
      (checkConnectorLocations kind.name cfg org allowed = .ok () →
        ∀ location, runLocation reader kind cfg org = .ok location →
          AsWritten kind (mapFields cfg) org allowed) := by
  constructor
  · intro agree passed location derived
    exact (asWritten_iff passed derived).mp (agree.accepted passed location derived)
  · intro written
    have accepted (passed : checkConnectorLocations kind.name cfg org allowed = .ok ())
        (location : Location) (derived : runLocation reader kind cfg org = .ok location) :
        checkOrgLocation allowed location = none :=
      (asWritten_iff passed derived).mpr (written passed location derived)
    refine ⟨accepted, ?_, fun location => within_of_allowed⟩
    intro passed location derived
    have within := within_of_allowed (accepted passed location derived)
    rw [(runLocation_parts derived).1] at within
    exact within

def noNumbers : NumberReader where
  truncated _ := 0
  parseInt _ := none

def paddedPrefix : Value :=
  .object [("bucket", .text "migration"), ("prefix", .text " orgs/7/incoming/")]

/-- The API stores the configuration, and every run refuses it. -/
theorem padded_prefix_refused :
    ¬LocationsAgree noNumbers .watchedPrefix paddedPrefix 7 ["migration"] := by
  intro agree
  have passed : checkConnectorLocations "watched_prefix" paddedPrefix 7 ["migration"] = .ok () := by
    decide
  have refused := agree.accepted passed _ rfl
  have wrong := (checkOrgLocation_none_iff.mp refused).2.2.front ' ' rfl
  exact absurd wrong (by decide)

end MigrationPlatform.Connectors
